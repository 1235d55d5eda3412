import PyVpn.ServerSteps
import Mathlib.Logic.Relation

/-! What a server does on its own: TUN packets, keepalives, sweeps, connections that
come and go. With the datagram steps this gives one rule for invariants of runs. -/
namespace PyVpn
open EventRun
variable {P : Primitives}

/-- What timers and the TUN can make of an entry. -/
inductive Upkeep (cs : ClientSession P) : ClientSession P → Prop
  | keepalive (now : Time) : Upkeep cs { cs with lastKeepalive := now }
  | encrypted (nonces : Nat → Nonce) (packet : Bytes) (ch : DataChannel)
      (hdata : cs.data = some ch) :
      Upkeep cs { cs with data := some (encrypt P nonces packet ch).2 }
  | swept (now : Time) : Upkeep cs { cs with data := cs.data.map (cleanupFragments now) }

/-- One change of the tables that no datagram caused. -/
inductive UpkeepStep (self : VpnServer P) : VpnServer P → Prop
  | handedOver (effects : List Effect) : UpkeepStep self { self with effects := effects }
  | joined (draw : SessionDraw P) (addr : Addr) (writer : Option Nat) (cs : ClientSession P)
      (hnone : self.clients.lookup addr = none)
      (hfresh : FreshEntry self.config draw addr writer cs) :
      UpkeepStep self { self with clients := self.clients.insert addr cs }
  | entry (addr : Addr) (cs cs' : ClientSession P) (effects : List Effect)
      (hcs : self.clients.lookup addr = some cs) (hstep : Upkeep cs cs') :
      UpkeepStep self { self with
        clients := self.clients.insert addr cs', effects := effects }
  | removed (addr : Addr) (cs : ClientSession P) (hcs : self.clients.lookup addr = some cs) :
      UpkeepStep self (removeClient addr self)

abbrev UpkeepSteps : VpnServer P → VpnServer P → Prop := Relation.ReflTransGen UpkeepStep

theorem removeClient_upkeep (addr : Addr) (self : VpnServer P) :
    UpkeepSteps self (removeClient addr self) := by
  cases hcs : self.clients.lookup addr with
  | none =>
    have hrun : removeClient addr self = self := by simp [removeClient, hcs]
    rw [hrun]
  | some cs => exact .single (.removed addr cs hcs)

theorem foldl_reflTransGen {σ α : Type*} {R : σ → σ → Prop} {f : σ → α → σ}
    (h : ∀ s a, Relation.ReflTransGen R s (f s a)) (l : List α) (s : σ) :
    Relation.ReflTransGen R s (l.foldl f s) := by
  induction l generalizing s with
  | nil => exact .refl
  | cons a l ih => exact (h s a).trans (ih (f s a))

theorem cleanupStale_upkeep (now : Time) (self : VpnServer P) :
    UpkeepSteps self (cleanupStale now self) :=
  foldl_reflTransGen (fun s addr => removeClient_upkeep addr s) _ self

theorem cleanupAllFragments_upkeep (now : Time) (self : VpnServer P) :
    UpkeepSteps self (cleanupAllFragments now self) := by
  refine foldl_reflTransGen ?_ _ self
  intro s addr
  cases hcs : s.clients.lookup addr with
  | none => exact .refl
  | some cs => exact .single (.entry addr cs _ s.effects hcs (.swept now))

theorem sendKeepalive_upkeep (now : Time) (addr : Addr) {self : VpnServer P}
    (haddr : Addressed self) : UpkeepSteps self (sendKeepalive now addr self).2 := by
  unfold sendKeepalive
  rw [Py.bind_run]
  simp only [Py.self_run]
  cases hcs : self.clients.lookup addr with
  | none => exact .refl
  | some cs =>
    obtain rfl := haddr addr cs hcs
    by_cases hdue : (cs.isReady &&
        decide (now - cs.lastKeepalive ≥ self.config.keepaliveInterval)) = true
    · simp only [if_pos hdue]
      obtain ⟨r, effects, hsend⟩ := EffectOnly.of_keeps (syncSendTo_keeps cs
        (encodePacket .control cs.session.sid [MessageType.keepalive.value])) self
      simp only [sendTo, Coroutine.await, Py.bind_run, hsend]
      cases r with
      | error e => exact .single (.handedOver effects)
      | ok u => exact .single (.entry cs.addr cs _ effects hcs (.keepalive now))
    · simp only [if_neg hdue]
      exact .refl

theorem selectClient_eq_some {self : VpnServer P} {packet : Bytes} {cs : ClientSession P}
    {ch : DataChannel} (h : selectClient self packet = some (cs, ch)) :
    20 ≤ packet.length ∧ cs.isReady = true ∧ cs.data = some ch ∧
      ∃ ip addr, ipv4Dest packet = some ip ∧ self.ipToAddr.lookup ip = some addr ∧
        self.clients.lookup addr = some cs := by
  unfold selectClient at h
  by_cases hlen : packet.length < 20
  · rw [if_pos hlen] at h
    cases h
  · rw [if_neg hlen] at h
    obtain ⟨ip, hip, h⟩ := Option.bind_eq_some_iff.mp h
    obtain ⟨addr, haddr, h⟩ := Option.bind_eq_some_iff.mp h
    obtain ⟨cs', hcs, h⟩ := Option.bind_eq_some_iff.mp h
    obtain ⟨ch', hch, h⟩ := Option.bind_eq_some_iff.mp h
    by_cases hready : cs'.isReady = true
    · rw [if_pos hready] at h
      cases h
      exact ⟨Nat.le_of_not_lt hlen, hready, hch, ip, addr, hip, haddr, hcs⟩
    · rw [if_neg hready] at h
      cases h

theorem onTunReadable_none {self : VpnServer P} {packet : Bytes}
    (h : selectClient self packet = none) (nonces : Nat → Nonce) :
    onTunReadable nonces packet self = (.ok (), self) := by
  simp [onTunReadable, h]

theorem onTunReadable_some {self : VpnServer P} {packet : Bytes} {cs : ClientSession P}
    {ch : DataChannel} (h : selectClient self packet = some (cs, ch)) (nonces : Nat → Nonce) :
    onTunReadable nonces packet self = ((encrypt P nonces packet ch).1.map fun _ => (),
      { self with clients := self.clients.insert cs.addr { cs with
          data := some (encrypt P nonces packet ch).2 } }) := by
  have hdrop (wires : List Bytes) (s : VpnServer P) :
      (wires.forM fun wire => (sendTo cs wire).drop) s = (.ok (), s) := by
    induction wires with
    | nil => rfl
    | cons wire wires ih => exact ih
  unfold onTunReadable
  rw [Py.bind_run]
  simp only [Py.self_run, h, Py.bind_run, onChannel, storeClient, Py.assign_run, Py.ofExcept_run]
  cases (encrypt P nonces packet ch).1 with
  | error e => rfl
  | ok wires => exact hdrop wires _

theorem onTunReadable_upkeep (nonces : Nat → Nonce) (packet : Bytes) {self : VpnServer P}
    (haddr : Addressed self) : UpkeepSteps self (onTunReadable nonces packet self).2 := by
  cases hselect : selectClient self packet with
  | none =>
    rw [onTunReadable_none hselect]
  | some found =>
    obtain ⟨cs, ch⟩ := found
    obtain ⟨-, -, hdata, ip, addr, -, -, hcs⟩ := selectClient_eq_some hselect
    obtain rfl := haddr addr cs hcs
    rw [onTunReadable_some hselect]
    exact .single (.entry cs.addr cs _ self.effects hcs (.encrypted nonces packet ch hdata))

theorem serverStep_upkeep {self : VpnServer P} (haddr : Addressed self) (e : ServerEvent P)
    (hother : ∀ draw data addr, e ≠ .datagram draw data addr) :
    UpkeepSteps self (serverStep self e) := by
  cases e with
  | datagram draw data addr => exact absurd rfl (hother draw data addr)
  | tcpConnect draw addr writer =>
    obtain ⟨e, hget⟩ | ⟨cs, -, hget⟩ | ⟨cs, hnone, hfresh, hget⟩ :=
      getOrCreateSession_cases draw addr (some writer) self
    · rw [serverStep, hget]
    · rw [serverStep, hget]
    · rw [serverStep, hget]
      exact .single (.joined draw addr (some writer) cs hnone hfresh)
  | tcpDisconnect addr => exact removeClient_upkeep addr self
  | tunReadable nonces packet => exact onTunReadable_upkeep nonces packet haddr
  | cleanupStale now => exact cleanupStale_upkeep now self
  | keepalive now addr => exact sendKeepalive_upkeep now addr haddr
  | cleanupFragments now => exact cleanupAllFragments_upkeep now self

/-- Invariant rule for servers: what admitted datagrams and upkeep keep, runs keep. -/
theorem serverStep_inv (ok : VpnServer P → ServerEvent P → Prop) {I : VpnServer P → Prop}
    (haddr : ∀ self, I self → Addressed self)
    (hdatagram : ∀ self self' draw data addr, I self → ok self (.datagram draw data addr) →
      DatagramStep draw data addr self self' → I self')
    (hupkeep : ∀ self self', I self → UpkeepStep self self' → I self')
    (self : VpnServer P) (e : ServerEvent P) (hI : I self) (hok : ok self e) :
    I (serverStep self e) := by
  have hother (hne : ∀ draw data addr, e ≠ .datagram draw data addr) : I (serverStep self e) := by
    have hsteps := serverStep_upkeep (haddr self hI) e hne
    generalize serverStep self e = self' at hsteps
    induction hsteps with
    | refl => exact hI
    | tail _ hstep ih => exact hupkeep _ _ ih hstep
  cases e with
  | datagram draw data addr =>
    exact hdatagram self _ draw data addr hI hok (handleUdpData_step draw data addr (haddr self hI))
  | _ => exact hother (by simp)

end PyVpn
