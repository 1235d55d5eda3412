import PyVpn.Survival

/-! What one peer's own packets decide about its entry. The virtual address comes from the
pool and the send counter from the TUN; no handler and no `decrypt` reads either. -/
namespace PyVpn
variable {P : Primitives}

def Session.unassigned (s : Session P) : Session P := { s with assignedIp := none }

def DataChannel.unsent (ch : DataChannel) : DataChannel := { ch with packetCounter := 0 }

/-- An entry without what the pool and the TUN write into it. -/
def ClientSession.bare (cs : ClientSession P) : ClientSession P :=
  { cs with
    session := cs.session.unassigned
    data := cs.data.map DataChannel.unsent
    virtualIp := none }

def peerView (self : VpnServer P) (addr : Addr) : Option (ClientSession P) :=
  (self.clients.lookup addr).map ClientSession.bare

section Handlers

theorem setState_blind (state : HandshakeState) :
    (setState (P := P) state).Blind Session.unassigned :=
  fun _ => rfl

theorem failHandshake_blind : (failHandshake (P := P)).Blind Session.unassigned :=
  (setState_blind .error).bind fun _ => Py.Blind.pure []

theorem signAs_blind (coins data : Bytes) :
    (signAs (P := P) coins data).Blind Session.unassigned := by
  refine Py.Blind.self (fun _ => rfl) fun s => ?_
  cases truthy s.localKeyPath with
  | false => exact Py.Blind.ofExcept _
  | true => exact Py.Blind.assign (fun _ => rfl) fun _ => Py.Blind.ofExcept _

theorem acceptPeer_blind (certData pubData : Bytes) :
    (acceptPeer (P := P) certData pubData).Blind Session.unassigned := by
  refine (Py.Blind.ofExcept _).bind fun cert => Py.Blind.assign (fun _ => rfl) fun _ => ?_
  refine Py.Blind.self (fun _ => rfl) fun s => (Py.Blind.ofExcept _).bind fun accepted => ?_
  refine Py.Blind.ite (Py.Blind.pure false) (Py.Blind.self (fun _ => rfl) fun t => ?_)
  exact (Py.Blind.ofExcept _).bind fun cipher =>
    Py.Blind.assign (fun _ => rfl) fun _ => Py.Blind.pure true

theorem serverHelloReply_blind (coins pubData : Bytes) :
    (serverHelloReply (P := P) coins pubData).Blind Session.unassigned := by
  refine Py.Blind.self (fun _ => rfl) fun s => (signAs_blind coins _).bind fun sig => ?_
  refine (Py.Blind.ofExcept _).bind fun hello => (Py.Blind.ofExcept _).bind fun sigLen => ?_
  exact (setState_blind .helloSent).bind fun _ => Py.Blind.pure _

theorem serverHandleReset_blind (now : Time) (raw : Bytes) :
    (serverHandleReset (P := P) now raw).Blind Session.unassigned := by
  refine (Py.Blind.ofExcept _).bind fun r => ?_
  obtain ⟨opcode, sid, payload⟩ := r
  refine Py.Blind.ite (Py.Blind.pure []) ?_
  refine Py.Blind.assign (fun _ => rfl) fun _ => ?_
  exact Py.Blind.self (fun _ => rfl) fun s => Py.Blind.pure _

theorem serverHandleClientHello_blind (coins payload : Bytes) :
    (serverHandleClientHello (P := P) coins payload).Blind Session.unassigned := by
  refine Py.Blind.tryExcept ((Py.Blind.ofExcept _).bind fun r => ?_) failHandshake_blind
  obtain ⟨certData, pubData, offset⟩ := r
  refine Py.Blind.assign (fun _ => rfl) fun _ => ?_
  refine (acceptPeer_blind certData pubData).bind fun accepted => ?_
  exact Py.Blind.ite ((setState_blind .error).bind fun _ => Py.Blind.pure [])
    (serverHelloReply_blind coins pubData)

theorem serverHandleClientFinished_blind (payload : Bytes) :
    (serverHandleClientFinished (P := P) payload).Blind Session.unassigned := by
  refine Py.Blind.tryExcept ((Py.Blind.ofExcept _).bind fun sig => ?_) failHandshake_blind
  refine Py.Blind.self (fun _ => rfl) fun s => ?_
  exact Py.Blind.ite ((setState_blind .error).bind fun _ => Py.Blind.pure [])
    ((setState_blind .established).bind fun _ => Py.Blind.pure [])

theorem serverCall_unassigned (s : Session P) (call : ServerCall) :
    serverCall s.unassigned call = (serverCall s call).unassigned := by
  cases call with
  | reset now raw => exact congrArg Prod.snd (serverHandleReset_blind now raw s)
  | clientHello coins payload =>
    exact congrArg Prod.snd (serverHandleClientHello_blind coins payload s)
  | clientFinished payload => exact congrArg Prod.snd (serverHandleClientFinished_blind payload s)

end Handlers

section Receiving

theorem authenticate_blind (P : Primitives) (wire : Bytes) :
    (authenticate P wire).Blind DataChannel.unsent := by
  unfold authenticate
  cases decodePacket wire with
  | error e => exact Py.Blind.pure none
  | ok r =>
    obtain ⟨opcode, sid, payload⟩ := r
    refine Py.Blind.ite (Py.Blind.pure none) ((Py.Blind.ofExcept _).bind fun pktCounter => ?_)
    refine Py.Blind.self (fun _ => rfl) fun ch => Py.Blind.assign (fun _ => rfl) fun _ => ?_
    refine Py.Blind.ite ?_ (Py.Blind.pure none)
    cases openSealed P ch (payload.drop 4) (ch.sharedId.val ++ payload.take 4) with
    | error e => exact Py.Blind.pure none
    | ok inner => exact Py.Blind.pure _

theorem reassemble_blind (now : Time) (pktCounter : Nat) (plain : Bytes) :
    (reassemble now pktCounter plain).Blind DataChannel.unsent := by
  refine Py.Blind.ite (Py.Blind.pure none) (Py.Blind.self (fun _ => rfl) fun ch => ?_)
  refine Py.Blind.ite (Py.Blind.assign (fun _ => rfl) fun _ => Py.Blind.pure none) ?_
  refine Py.Blind.assign (fun _ => rfl) fun _ => Py.Blind.ite ?_ (Py.Blind.pure none)
  exact (Py.Blind.ofExcept _).bind fun data =>
    Py.Blind.assign (fun _ => rfl) fun _ => Py.Blind.pure _

theorem deliver_blind (P : Primitives) (now : Time) (pktCounter : Nat) (inner : Bytes) :
    (deliver P now pktCounter inner).Blind DataChannel.unsent := by
  refine Py.Blind.ite (Py.Blind.pure none) ?_
  cases decompress P inner with
  | none => exact Py.Blind.pure none
  | some plain =>
    exact Py.Blind.ite (Py.Blind.pure _)
      (Py.Blind.ite (reassemble_blind now pktCounter plain) (Py.Blind.pure _))

/-- What comes in is opened and reassembled whatever the channel has sent. -/
theorem decrypt_blind (P : Primitives) (now : Time) (wire : Bytes) :
    (decrypt P now wire).Blind DataChannel.unsent := by
  refine (authenticate_blind P wire).bind fun opened => ?_
  cases opened with
  | none => exact Py.Blind.pure none
  | some r => exact deliver_blind P now r.1 r.2

theorem encrypt_unsent (P : Primitives) (nonces : Nat → Nonce) (packet : Bytes)
    (ch : DataChannel) : (encrypt P nonces packet ch).2.unsent = ch.unsent := by
  obtain ⟨n, -, hrun⟩ := encrypt_frame P nonces packet ch
  rw [hrun]
  rfl

end Receiving
end PyVpn
