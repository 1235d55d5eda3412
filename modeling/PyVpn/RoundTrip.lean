import PyVpn.EventRun
import PyVpn.Fragments

/-! One `encrypt` call whose wires arrive in order: the receiving channel returns the
packet with the last of them and nothing before. -/
namespace PyVpn
open EventRun
section
variable {P : Primitives} {c : Cipher} {sender receiver ch : DataChannel} {plaintext : Bytes}
  {i : Nat}

def receiveAll (P : Primitives) (now : Time) (wires : List Bytes) (ch : DataChannel) :
    DataChannel := run (fun ch wire => (decrypt P now wire ch).2) wires ch

def Decrypts (P : Primitives) (sender receiver : DataChannel) : Prop :=
  ∀ nonces plaintext wires now, Unmarked plaintext →
    (encrypt P nonces plaintext sender).1 = .ok wires →
    wires ≠ [] ∧ ∀ i wire, wires[i]? = some wire →
      (decrypt P now wire (receiveAll P now (wires.take i) receiver)).1 =
        .ok (if i + 1 = wires.length then some plaintext else none)

/-- The receiver has taken the first `i` wires of a call that starts at counter 1. -/
structure Taken (c : Cipher) (shared : SharedId) (plaintext : Bytes) (i : Nat)
    (ch : DataChannel) : Prop where
  cipher : ch.cipher = some c
  ids : ch.sharedId = shared
  window : ch.replay.highest ≤ i
  group : ¬ plaintext.length ≤ maxPayload →
    GroupHeld plaintext 0 (ch.fragments.lookup (((0 : Nat) : Int) + 1)) (Finset.Ioc 0 i)

theorem Taken.decrypt (ideal : IdealAead P) {shared : SharedId}
    (h : Taken c shared plaintext i ch) (hi : i + 1 < 256 ^ 4) (now : Time) (nonce : Nonce)
    {inner : Bytes} (hinner : inner ≠ []) :
    ∃ replay, replay.highest = ((i + 1 : Nat) : Int) ∧
      PyVpn.decrypt P now (sealWire P c shared nonce (i + 1) inner) ch =
        deliver P now (i + 1) inner { ch with replay := replay } := by
  have hwindow := h.window
  obtain rfl := h.ids
  have hcheck : (ch.replay.check ((i + 1 : Nat) : Int)).1 = true ∧
      (ch.replay.check ((i + 1 : Nat) : Int)).2.highest = ((i + 1 : Nat) : Int) :=
    ReplayWindow.check_above (by omega) (by omega)
  refine ⟨_, hcheck.2, ?_⟩
  have hauth := authenticate_sealWire ideal h.cipher nonce hi hinner
  rw [if_pos hcheck.1] at hauth
  unfold PyVpn.decrypt
  rw [Py.bind_run, hauth]

/-- The sender's `i`-th wire at a receiver that has taken those before it. -/
theorem Taken.next (ideal : IdealAead P) (hround : ∀ b, P.lz4Decompress (P.lz4Compress b) = .ok b)
    (hlz4 : sender.compLzo = true → P.hasLz4 = true) (hzero : sender.packetCounter = 0)
    (henc : Encryptable sender c plaintext) (hhead : Unmarked plaintext)
    (h : Taken c sender.sharedId plaintext i ch) (hi : i < wireCount plaintext) (now : Time)
    (nonces : Nat → Nonce) :
    let result := PyVpn.decrypt P now (wireAt P c nonces sender plaintext i) ch
    (i + 1 = wireCount plaintext → result.1 = .ok (some plaintext)) ∧
      (i + 1 < wireCount plaintext → result.1 = .ok none ∧
        Taken c sender.sharedId plaintext (i + 1) result.2) := by
  have hcounters := henc.counters
  have hcount := henc.count
  have hnumber : sender.packetCounter + 1 + i = i + 1 := by omega
  obtain ⟨replay, hhighest, hrun⟩ := h.decrypt ideal (by omega) now (nonces i)
    (compressInner_ne_nil P sender (pieceAt plaintext i))
  simp only [wireAt, hnumber, hrun]
  by_cases hwhole : plaintext.length ≤ maxPayload
  · have hone : wireCount plaintext = 1 := if_pos hwhole
    have hpiece : pieceAt plaintext i = plaintext := if_pos hwhole
    rw [hpiece, deliver_whole hround now (i + 1) sender hlz4 hwhole hhead]
    exact ⟨fun _ => rfl, fun hmore => absurd hmore (by omega)⟩
  · have htotal : wireCount plaintext = fragmentTotal plaintext := if_neg hwhole
    rw [htotal] at hcount hi ⊢
    have hinsert : insert (0 + 1 + i) (Finset.Ioc 0 i) = Finset.Ioc 0 (i + 1) := by
      ext n
      simp only [Finset.mem_insert, Finset.mem_Ioc]
      omega
    have hsub : insert (0 + 1 + i) (Finset.Ioc 0 i) ⊆
        Finset.Ioc 0 (0 + fragmentTotal plaintext) := by
      rw [hinsert]
      exact Finset.Ioc_subset_Ioc_right (by omega)
    have hgroup : GroupHeld plaintext 0 (({ ch with replay := replay } :
        DataChannel).fragments.lookup (((0 : Nat) : Int) + 1)) (Finset.Ioc 0 i) := h.group hwhole
    obtain ⟨buf, hbuf, hassemble⟩ := reassemble_fragment hwhole hcount hgroup hi hsub now
    have hfirst : 0 + 1 + i = i + 1 := by omega
    rw [hfirst] at hinsert hbuf hassemble
    have hfull : insert (i + 1) (Finset.Ioc 0 i) = Finset.Ioc 0 (0 + fragmentTotal plaintext) ↔
        i + 1 = fragmentTotal plaintext := by
      rw [hinsert, Nat.zero_add]
      constructor
      · intro heq
        have hcard := congrArg Finset.card heq
        rwa [Nat.card_Ioc, Nat.card_Ioc] at hcard
      · intro heq
        rw [heq]
    rw [deliver_fragment hround now (i + 1) sender hlz4 hwhole i, hassemble]
    constructor
    · intro hlast
      rw [if_pos (hfull.mpr hlast)]
    · intro hmore
      rw [if_neg (mt hfull.mp (Nat.ne_of_lt hmore))]
      refine ⟨rfl, h.cipher, h.ids, le_of_eq hhighest, fun _ => ?_⟩
      rw [AList.lookup_insert, ← hinsert]
      exact hbuf

theorem Taken.run (ideal : IdealAead P) (hround : ∀ b, P.lz4Decompress (P.lz4Compress b) = .ok b)
    (hlz4 : sender.compLzo = true → P.hasLz4 = true) (hzero : sender.packetCounter = 0)
    (henc : Encryptable sender c plaintext) (hhead : Unmarked plaintext)
    (h : Taken c sender.sharedId plaintext 0 receiver) (hi : i < wireCount plaintext)
    (now : Time) (nonces : Nat → Nonce) :
    Taken c sender.sharedId plaintext i (receiveAll P now
      ((List.range i).map (wireAt P c nonces sender plaintext)) receiver) := by
  induction i with
  | zero => exact h
  | succ i ih =>
    have hbefore := ih (by omega)
    rw [List.range_succ, List.map_append, receiveAll, run_append]
    exact ((hbefore.next ideal hround hlz4 hzero henc hhead (by omega) now nonces).2 hi).2

theorem encrypt_wires {nonces : Nat → Nonce} {wires : List Bytes}
    (hcipher : sender.cipher = some c) (h : (encrypt P nonces plaintext sender).1 = .ok wires) :
    Encryptable sender c plaintext ∧ wires = wiresOf P c nonces sender plaintext := by
  obtain ⟨c', henc, hwires⟩ := encrypt_eq_ok h
  cases hcipher.symm.trans henc.cipher
  exact ⟨henc, hwires⟩

theorem wiresOf_get {nonces : Nat → Nonce} {wire : Bytes}
    (h : (wiresOf P c nonces sender plaintext)[i]? = some wire) :
    i < wireCount plaintext ∧ wire = wireAt P c nonces sender plaintext i := by
  obtain ⟨hi, rfl⟩ := List.getElem?_eq_some_iff.mp h
  rw [wiresOf_length] at hi
  exact ⟨hi, by simp [wiresOf]⟩

theorem new_compLzo (idS idR : SessionId) (cipher : Option Cipher) (lzo : Bool)
    (window : WindowSize) (h : (DataChannel.new P idS idR.val cipher lzo window).compLzo = true) :
    P.hasLz4 = true := (Bool.and_eq_true_iff.mp h).2

theorem taken_new (idS idR : SessionId) (c : Cipher) (lzoS lzoR : Bool)
    (windowS windowR : WindowSize) (plaintext : Bytes) :
    Taken c (DataChannel.new P idS idR.val (some c) lzoS windowS).sharedId plaintext 0
      (.new P idR idS.val (some c) lzoR windowR) := by
  refine ⟨rfl, deriveSessionId_comm idR idS, by simp [DataChannel.new, ReplayWindow.new], ?_⟩
  intro hlong
  exact rfl

theorem decrypts_fresh (ideal : IdealAead P)
    (hround : ∀ b, P.lz4Decompress (P.lz4Compress b) = .ok b) (idS idR : SessionId)
    (c : Cipher) (lzoS lzoR : Bool) (windowS windowR : WindowSize) :
    Decrypts P (.new P idS idR.val (some c) lzoS windowS)
      (.new P idR idS.val (some c) lzoR windowR) := by
  intro nonces plaintext wires now hhead hwires
  obtain ⟨henc, rfl⟩ := encrypt_wires rfl hwires
  have htaken := taken_new (P := P) idS idR c lzoS lzoR windowS windowR plaintext
  have hlz4 := new_compLzo (P := P) idS idR (some c) lzoS windowS
  generalize hsender : DataChannel.new P idS idR.val (some c) lzoS windowS = sender at *
  have hzero : sender.packetCounter = 0 := hsender ▸ rfl
  refine ⟨List.ne_nil_of_length_pos (wiresOf_length P c nonces sender plaintext ▸
    wireCount_pos plaintext), ?_⟩
  intro i wire hwire
  obtain ⟨hi, rfl⟩ := wiresOf_get hwire
  have htake : (wiresOf P c nonces sender plaintext).take i =
      (List.range i).map (wireAt P c nonces sender plaintext) := by
    rw [wiresOf, ← List.map_take, List.take_range, Nat.min_eq_left (Nat.le_of_lt hi)]
  have hbefore := htaken.run ideal hround hlz4 hzero henc hhead hi now nonces
  obtain ⟨hlast, hmore⟩ := hbefore.next ideal hround hlz4 hzero henc hhead hi now nonces
  rw [htake, wiresOf_length]
  by_cases hend : i + 1 = wireCount plaintext
  · rw [if_pos hend]
    exact hlast hend
  · rw [if_neg hend]
    exact (hmore (by omega)).1

/-- Every wire of a call opens at the receiver, under its own counter, and decompresses
to what was sealed: the whole plaintext, or its fragment. -/
def Opens (P : Primitives) (sender receiver : DataChannel) : Prop :=
  ∀ nonces plaintext wires, (encrypt P nonces plaintext sender).1 = .ok wires →
    ∀ i wire, wires[i]? = some wire → ∃ inner,
      (authenticate P wire receiver).1 = .ok (some (sender.packetCounter + 1 + i, inner)) ∧
        decompress P inner = some (pieceAt plaintext i)

theorem opens_fresh (ideal : IdealAead P)
    (hround : ∀ b, P.lz4Decompress (P.lz4Compress b) = .ok b) (idS idR : SessionId)
    (c : Cipher) (lzoS lzoR : Bool) (windowS windowR : WindowSize) :
    Opens P (.new P idS idR.val (some c) lzoS windowS)
      (.new P idR idS.val (some c) lzoR windowR) := by
  intro nonces plaintext wires hwires i wire hwire
  obtain ⟨henc, rfl⟩ := encrypt_wires rfl hwires
  have htaken := taken_new (P := P) idS idR c lzoS lzoR windowS windowR plaintext
  have hlz4 := new_compLzo (P := P) idS idR (some c) lzoS windowS
  generalize hsender : DataChannel.new P idS idR.val (some c) lzoS windowS = sender at *
  generalize DataChannel.new P idR idS.val (some c) lzoR windowR = receiver at *
  obtain ⟨hi, rfl⟩ := wiresOf_get hwire
  have hzero : sender.packetCounter = 0 := hsender ▸ rfl
  have hcounters := henc.counters
  have hwindow := htaken.window
  have hnumber : sender.packetCounter + 1 + i = i + 1 := by omega
  have hcheck : (receiver.replay.check ((i + 1 : Nat) : Int)).1 = true :=
    (ReplayWindow.check_above (by omega) (by omega)).1
  refine ⟨compressInner P sender (pieceAt plaintext i), ?_,
    decompress_compressInner hround sender hlz4 _⟩
  rw [wireAt, hnumber, ← htaken.ids, authenticate_sealWire ideal htaken.cipher (nonces i) (by omega)
    (compressInner_ne_nil P sender (pieceAt plaintext i)), if_pos hcheck]

end
end PyVpn
