import PyVpn.Sealing
import PyVpn.ServerTables
import PyVpn.Transparent

/-! Which client a TUN packet is encrypted for. The destination address is in bytes
16..19 of an IPv4 header; `_ipv4_dest` reads the four bytes behind the header length
plus four. -/
namespace PyVpn
open EventRun
variable {P : Primitives}

def headerLength (packet : Bytes) : Nat := (packet.headD 0 &&& 0x0f).toNat * 4

structure WellFormedIpv4 (packet : Bytes) : Prop where
  version : packet.headD 0 >>> 4 = 4
  headerMin : 20 ≤ headerLength packet
  headerFits : headerLength packet ≤ packet.length

def destination (packet : Bytes) : Bytes := slice packet 16 20

/-- The bytes `_ipv4_dest` takes for it. -/
def bytesRead (packet : Bytes) : Bytes :=
  slice packet (headerLength packet + 4) (headerLength packet + 8)

def ClientSession.encrypted (cs : ClientSession P) (nonces : Nat → Nonce) (packet : Bytes) :
    ClientSession P :=
  { cs with data := cs.data.map fun ch => (encrypt P nonces packet ch).2 }

/-- A client that packets for this address belong to. -/
def Serves (cs : ClientSession P) (octets : Bytes) : Prop :=
  cs.isReady = true ∧ cs.virtualIp = some (dotted octets)

instance (cs : ClientSession P) (octets : Bytes) : Decidable (Serves cs octets) :=
  inferInstanceAs (Decidable (_ ∧ _))

/-- The packet is encrypted for the ready client whose virtual address is its
destination; every other entry stays as it is. -/
def RoutedByDestination (self : VpnServer P) (nonces : Nat → Nonce) (packet : Bytes) : Prop :=
  ∀ addr, (serverStep self (.tunReadable nonces packet)).clients.lookup addr =
    (self.clients.lookup addr).map fun cs =>
      if Serves cs (destination packet) then cs.encrypted nonces packet else cs

def Served (self : VpnServer P) (octets : Bytes) : Prop :=
  octets.length = 4 ∧ ∃ addr cs, self.clients.lookup addr = some cs ∧ Serves cs octets

theorem WellFormedIpv4.ipv4Dest_eq {packet : Bytes} (h : WellFormedIpv4 packet) :
    ipv4Dest packet =
      if (bytesRead packet).length = 4 then some (dotted (bytesRead packet)) else none := by
  have hlen : ¬ packet.length < 20 := Nat.not_lt.mpr (h.headerMin.trans h.headerFits)
  by_cases hshort : packet.length < headerLength packet + 4
  · have hread : (bytesRead packet).length ≠ 4 := by
      rw [bytesRead, slice_length]
      omega
    rw [if_neg hread]
    unfold ipv4Dest
    rw [if_neg hlen]
    exact if_pos hshort
  · unfold ipv4Dest
    rw [if_neg hlen]
    exact if_neg hshort

/-- What `_on_tun_readable` selects, where the tables are in order. -/
theorem selectClient_iff {self : VpnServer P} (htables : Tables self) {packet : Bytes}
    (hpacket : WellFormedIpv4 packet) {cs : ClientSession P} {ch : DataChannel} :
    selectClient self packet = some (cs, ch) ↔ (bytesRead packet).length = 4 ∧
      self.clients.lookup cs.addr = some cs ∧ cs.data = some ch ∧
      Serves cs (bytesRead packet) := by
  have hlen : ¬ packet.length < 20 :=
    Nat.not_lt.mpr (hpacket.headerMin.trans hpacket.headerFits)
  constructor
  · intro h
    obtain ⟨-, hready, hdata, ip, addr, hip, hmap, hcs⟩ := selectClient_eq_some h
    obtain rfl := htables.addressed addr cs hcs
    rw [hpacket.ipv4Dest_eq] at hip
    by_cases hread : (bytesRead packet).length = 4
    · rw [if_pos hread] at hip
      cases hip
      have hheld := (htables.leases.owner_iff _ _).mp hmap
      rw [virtualIpAt_of_lookup hcs] at hheld
      exact ⟨hread, hcs, hdata, hready, hheld⟩
    · rw [if_neg hread] at hip
      cases hip
  · intro hserved
    obtain ⟨hread, hcs, hdata, hready, hip⟩ := hserved
    have hheld : virtualIpAt self cs.addr = some (dotted (bytesRead packet)) :=
      (virtualIpAt_of_lookup hcs).trans hip
    have hmap : self.ipToAddr.lookup (dotted (bytesRead packet)) = some cs.addr :=
      (htables.leases.owner_iff _ _).mpr hheld
    unfold selectClient
    rw [if_neg hlen, hpacket.ipv4Dest_eq, if_pos hread]
    simp [hmap, hcs, hdata, hready]

theorem ClientSession.isReady_data {cs : ClientSession P} (h : cs.isReady = true) :
    ∃ ch, cs.data = some ch :=
  Option.isSome_iff_exists.mp (Bool.and_eq_true_iff.mp h).2

theorem encrypted_ne {cs : ClientSession P} (h : cs.isReady = true) (nonces : Nat → Nonce)
    (packet : Bytes) : cs.encrypted nonces packet ≠ cs := by
  obtain ⟨ch, hch⟩ := ClientSession.isReady_data h
  obtain ⟨n, hn, hrun⟩ := encrypt_frame P nonces packet ch
  intro heq
  have hdata : (cs.encrypted nonces packet).data = cs.data := by rw [heq]
  rw [ClientSession.encrypted, hch, Option.map_some, hrun] at hdata
  have hcounter := congrArg DataChannel.packetCounter (Option.some.inj hdata)
  change ch.packetCounter + n = ch.packetCounter at hcounter
  omega

theorem tunReadable_lookup {self : VpnServer P} (htables : Tables self) {packet : Bytes}
    (hpacket : WellFormedIpv4 packet) (nonces : Nat → Nonce) (addr : Addr) :
    (serverStep self (.tunReadable nonces packet)).clients.lookup addr =
      (self.clients.lookup addr).map fun cs =>
        if (bytesRead packet).length = 4 ∧ Serves cs (bytesRead packet) then
          cs.encrypted nonces packet
        else cs := by
  have hother (hnone : ∀ ch cs, self.clients.lookup addr = some cs →
      selectClient self packet ≠ some (cs, ch)) (cs : ClientSession P)
      (hcs : self.clients.lookup addr = some cs) :
      ¬ ((bytesRead packet).length = 4 ∧ Serves cs (bytesRead packet)) := by
    intro hserved
    obtain ⟨hread, hserves⟩ := hserved
    obtain ⟨ch, hch⟩ := ClientSession.isReady_data hserves.1
    obtain rfl := htables.addressed addr cs hcs
    exact hnone ch cs hcs ((selectClient_iff htables hpacket).mpr ⟨hread, hcs, hch, hserves⟩)
  cases hselect : selectClient self packet with
  | none =>
    rw [serverStep, onTunReadable_none hselect]
    cases hcs : self.clients.lookup addr with
    | none => rfl
    | some cs =>
      have hno := hother (fun ch cs _ h => by simp [hselect] at h) cs hcs
      rw [Option.map_some, if_neg hno]
  | some found =>
    obtain ⟨cs, ch⟩ := found
    obtain ⟨hread, hcs, hdata, hserves⟩ := (selectClient_iff htables hpacket).mp hselect
    rw [serverStep, onTunReadable_some hselect]
    by_cases haddr : addr = cs.addr
    · subst haddr
      rw [AList.lookup_insert, hcs, Option.map_some, if_pos ⟨hread, hserves⟩,
        ClientSession.encrypted, hdata]
      rfl
    · rw [AList.lookup_insert_ne haddr]
      cases hcs' : self.clients.lookup addr with
      | none => rfl
      | some cs' =>
        have hno : ¬ ((bytesRead packet).length = 4 ∧ Serves cs' (bytesRead packet)) := by
          refine hother ?_ cs' hcs'
          intro ch' c hc h
          rw [hselect] at h
          cases h
          exact haddr (htables.addressed addr cs hc).symm
        rw [Option.map_some, if_neg hno]

/-- Routing read entry by entry: the bytes read select a client exactly if the
destination does. -/
theorem routedByDestination_iff_entries {self : VpnServer P} (htables : Tables self)
    {packet : Bytes} (hpacket : WellFormedIpv4 packet) (nonces : Nat → Nonce) :
    RoutedByDestination self nonces packet ↔
      ∀ addr cs, self.clients.lookup addr = some cs →
        (((bytesRead packet).length = 4 ∧ Serves cs (bytesRead packet)) ↔
          Serves cs (destination packet)) := by
  have hentry (addr : Addr) := tunReadable_lookup htables hpacket nonces addr
  constructor
  · intro hrouted addr cs hcs
    have hsame := (hentry addr).symm.trans (hrouted addr)
    rw [hcs, Option.map_some, Option.map_some, Option.some.injEq] at hsame
    constructor
    · intro hread
      by_contra hdest
      rw [if_pos hread, if_neg hdest] at hsame
      exact encrypted_ne hread.2.1 nonces packet hsame
    · intro hdest
      by_contra hread
      rw [if_neg hread, if_pos hdest] at hsame
      exact encrypted_ne hdest.1 nonces packet hsame.symm
  · intro hall addr
    rw [hentry]
    cases hcs : self.clients.lookup addr with
    | none => rfl
    | some cs =>
      rw [Option.map_some, Option.map_some]
      simp only [hall addr cs hcs]

theorem WellFormedIpv4.destination_length {packet : Bytes} (h : WellFormedIpv4 packet) :
    (destination packet).length = 4 := by
  have hlen := h.headerMin.trans h.headerFits
  rw [destination, slice_length]
  omega

theorem Serves.octets_eq {cs : ClientSession P} {a b : Bytes} (ha : a.length = 4)
    (hb : b.length = 4) (h : Serves cs a) (k : Serves cs b) : a = b := by
  have hne {octets : Bytes} (hlen : octets.length = 4) : octets ≠ [] := by
    intro hsame
    subst hsame
    cases hlen
  exact dotted_inj (hne ha) (hne hb) (Option.some.inj (h.2.symm.trans k.2))

/-- A TUN packet is routed by its destination exactly if the bytes read are the
destination, or neither the one nor the other is the address of a ready client. -/
theorem routed_by_destination_iff {self : VpnServer P} (hself : ServerReachable self)
    {packet : Bytes} (hpacket : WellFormedIpv4 packet) (nonces : Nat → Nonce) :
    RoutedByDestination self nonces packet ↔
      bytesRead packet = destination packet ∨
        ¬ Served self (bytesRead packet) ∧ ¬ Served self (destination packet) := by
  rw [routedByDestination_iff_entries hself.tables hpacket]
  have hlen := hpacket.destination_length
  constructor
  · intro hall
    by_cases hread : Served self (bytesRead packet)
    · obtain ⟨hfour, addr, cs, hcs, hserves⟩ := hread
      have hdest := (hall addr cs hcs).mp ⟨hfour, hserves⟩
      exact .inl (hserves.octets_eq hfour hlen hdest)
    · by_cases hdest : Served self (destination packet)
      · obtain ⟨-, addr, cs, hcs, hserves⟩ := hdest
        obtain ⟨hfour, hread⟩ := (hall addr cs hcs).mpr hserves
        exact .inl (hread.octets_eq hfour hlen hserves)
      · exact .inr ⟨hread, hdest⟩
  · intro hwhen addr cs hcs
    obtain heq | ⟨hread, hdest⟩ := hwhen
    · rw [heq]
      exact and_iff_right hlen
    · constructor
      · intro hread
        obtain ⟨hfour, hserves⟩ := hread
        exact absurd ⟨hfour, addr, cs, hcs, hserves⟩ hread
      · intro hserves
        exact absurd ⟨hlen, addr, cs, hcs, hserves⟩ hdest

namespace Transparent

def tunPacket (payload : Bytes) : Bytes :=
  [0x45, 0, 0, 0, 0, 0, 0, 0, 64, 1, 0, 0, 10, 8, 0, 1, 10, 8, 0, 2] ++ payload

theorem tunPacket_wellFormed (payload : Bytes) : WellFormedIpv4 (tunPacket payload) := by
  have hfirst : (tunPacket payload).headD 0 = 0x45 := rfl
  have hheader : headerLength (tunPacket payload) = 20 := by
    rw [headerLength, hfirst]
    rfl
  refine ⟨?_, Nat.le_of_eq hheader.symm, ?_⟩
  · rw [hfirst]
    rfl
  · rw [hheader, tunPacket, List.length_append]
    exact Nat.le_add_right 20 payload.length

theorem served_entry : ∃ cs, served.clients.lookup peer = some cs ∧ Serves cs [10, 8, 0, 2] := by
  have hany : ((served.clients.lookup peer).any fun cs => decide (Serves cs [10, 8, 0, 2])) := by
    decide +kernel
  obtain ⟨cs, hcs, hserves⟩ := (Option.any_eq_true _ _).mp hany
  exact ⟨cs, hcs, of_decide_eq_true hserves⟩

/-- A packet whose payload repeats the address at the place that is read. -/
theorem routed_by_destination_repeated :
    RoutedByDestination served (fun _ => nonceOf 0) (tunPacket [0, 0, 0, 0, 10, 8, 0, 2]) :=
  (routed_by_destination_iff served_reachable (tunPacket_wellFormed _) _).mpr (.inl (by decide))

/-- A packet for the only client, with a payload of zeros, is encrypted for nobody. -/
theorem tun_packet_for_nobody : ServerReachable served ∧
    WellFormedIpv4 (tunPacket (List.replicate 8 0)) ∧
    ¬ RoutedByDestination served (fun _ => nonceOf 0) (tunPacket (List.replicate 8 0)) := by
  refine ⟨served_reachable, tunPacket_wellFormed _, ?_⟩
  intro hrouted
  obtain ⟨cs, hcs, hserves⟩ := served_entry
  have hentries := (routedByDestination_iff_entries served_reachable.tables
    (tunPacket_wellFormed _) _).mp hrouted
  obtain ⟨-, hread⟩ := (hentries peer cs hcs).mpr hserves
  have hsame : [10, 8, 0, 2] = bytesRead (tunPacket (List.replicate 8 0)) :=
    hserves.octets_eq rfl rfl hread
  exact absurd hsame (by decide)

end Transparent
end PyVpn
