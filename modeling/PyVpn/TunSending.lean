import PyVpn.TunRouting

/-! What becomes of the wires a TUN packet was encrypted to. `_on_tun_readable` calls
`_send_to` for each and drops the coroutine it gets, so no body of it ever runs. -/
namespace PyVpn
open EventRun
variable {P : Primitives}

def HandsOver (self : VpnServer P) (cs : ClientSession P) (wire : Bytes) (e : Effect) : Prop :=
  match self.config.isTcp, cs.writer with
  | true, some writer => ∃ frame, framePacket wire = .ok frame ∧ e = .writerWrite writer frame
  | _, _ => e = .sendto wire cs.addr

/-- Every wire is handed over once, in order, and nothing else is. -/
def HandedOver (self self' : VpnServer P) (cs : ClientSession P) (wires : List Bytes) : Prop :=
  ∃ effects, self'.effects = self.effects ++ effects ∧
    List.Forall₂ (HandsOver self cs) wires effects

theorem HandedOver.nothing {self self' : VpnServer P} {cs : ClientSession P}
    {wires : List Bytes} (h : HandedOver self self' cs wires)
    (hsame : self'.effects = self.effects) : wires = [] := by
  obtain ⟨effects, happend, hall⟩ := h
  have hnil : effects = [] := List.append_right_eq_self.mp (happend.symm.trans hsame)
  subst hnil
  cases hall
  rfl

theorem encrypt_returns {nonces : Nat → Nonce} {plaintext : Bytes} {ch : DataChannel}
    {wires : List Bytes} (h : (encrypt P nonces plaintext ch).1 = .ok wires) :
    1 ≤ wires.length ∧ (encrypt P nonces plaintext ch).2 =
      { ch with packetCounter := ch.packetCounter + wires.length } := by
  obtain ⟨c, hc, rfl⟩ := encrypt_eq_ok h
  rw [encrypt_run nonces hc, wiresOf_length]
  exact ⟨wireCount_pos plaintext, rfl⟩

/-- The wires of a TUN packet are sealed, their counters are spent, and none of them
reaches the transport: whatever the state, the client and the packet. -/
theorem tun_wires_not_handed_over {self : VpnServer P} (hself : ServerReachable self)
    {nonces : Nat → Nonce} {packet : Bytes} {cs : ClientSession P} {ch : DataChannel}
    (hselect : selectClient self packet = some (cs, ch)) {wires : List Bytes}
    (hwires : (encrypt P nonces packet ch).1 = .ok wires) :
    let self' := serverStep self (.tunReadable nonces packet)
    ¬ HandedOver self self' cs wires ∧ self'.effects = self.effects ∧
      self.clients.lookup cs.addr = some cs ∧
      self'.clients.lookup cs.addr = some { cs with
        data := some { ch with packetCounter := ch.packetCounter + wires.length } } := by
  obtain ⟨hpos, hspent⟩ := encrypt_returns hwires
  obtain ⟨-, -, -, ip, addr, -, -, hcs⟩ := selectClient_eq_some hselect
  obtain rfl := hself.tables.addressed addr cs hcs
  simp only [serverStep, onTunReadable_some hselect, hspent]
  refine ⟨?_, trivial, hcs, AList.lookup_insert _⟩
  intro hover
  have hnil : wires = [] := hover.nothing rfl
  subst hnil
  exact absurd hpos (by decide)

namespace Transparent

def selecting : Bytes := tunPacket [0, 0, 0, 0, 10, 8, 0, 2]

theorem served_selects : ∃ cs ch wires, selectClient served selecting = some (cs, ch) ∧
    (encrypt primitives (fun _ => nonceOf 0) selecting ch).1 = .ok wires := by
  have hany : (selectClient served selecting).any fun found =>
      (encrypt primitives (fun _ => nonceOf 0) selecting found.2).1.toBool := by
    decide +kernel
  obtain ⟨⟨cs, ch⟩, hselect, hok⟩ := (Option.any_eq_true _ _).mp hany
  cases hrun : (encrypt primitives (fun _ => nonceOf 0) selecting ch).1 with
  | error e =>
    rw [hrun] at hok
    cases hok
  | ok wires => exact ⟨cs, ch, wires, hselect, hrun⟩

/-- One packet to one ready client: a counter is spent and nothing is sent. -/
theorem tun_wires_not_handed_over_once : ∃ cs wires,
    ¬ HandedOver served (serverStep served (.tunReadable (fun _ => nonceOf 0) selecting))
      cs wires ∧
    (serverStep served (.tunReadable (fun _ => nonceOf 0) selecting)).effects =
      served.effects := by
  obtain ⟨cs, ch, wires, hselect, hwires⟩ := served_selects
  have hlost := tun_wires_not_handed_over served_reachable hselect hwires
  exact ⟨cs, wires, hlost.1, hlost.2.1⟩

/-- A reachable server, a ready client and a packet whose wires are not handed over. -/
theorem tun_packet_lost : ServerReachable served ∧ ∃ cs ch wires,
    selectClient served selecting = some (cs, ch) ∧
    (encrypt primitives (fun _ => nonceOf 0) selecting ch).1 = .ok wires ∧
    ¬ HandedOver served (serverStep served (.tunReadable (fun _ => nonceOf 0) selecting))
      cs wires := by
  obtain ⟨cs, ch, wires, hselect, hwires⟩ := served_selects
  refine ⟨served_reachable, cs, ch, wires, hselect, hwires, ?_⟩
  intro hover
  have hnil : wires = [] := hover.nothing (by rw [serverStep, onTunReadable_some hselect])
  have hpos := (encrypt_returns hwires).1
  subst hnil
  exact absurd hpos (by decide)

end Transparent
end PyVpn
