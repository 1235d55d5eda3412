import PyVpn.PeerView

/-! One peer's machine: what the peer's packets and the timers make of its entry, and what
it writes to the TUN. Nothing in it depends on what the view of an entry forgets. -/
namespace PyVpn
variable {P : Primitives}

/-- What can happen to one peer's entry. -/
inductive PeerEvent (P : Primitives) where
  | datagram (draw : Draw P) (data : Bytes)
  | tcpConnect (draw : SessionDraw P) (writer : Nat)
  | tcpDisconnect
  | cleanupStale (now : Time)
  | keepalive (now : Time)
  | cleanupFragments (now : Time)

/-- The part of a server's events one peer's machine sees. -/
def peerEvent (addr : Addr) : ServerEvent P → Option (PeerEvent P)
  | .datagram draw data a => if a = addr then some (.datagram draw data) else none
  | .tcpConnect draw a writer => if a = addr then some (.tcpConnect draw writer) else none
  | .tcpDisconnect a => if a = addr then some .tcpDisconnect else none
  | .tunReadable _ _ => none
  | .cleanupStale now => some (.cleanupStale now)
  | .keepalive now a => if a = addr then some (.keepalive now) else none
  | .cleanupFragments now => some (.cleanupFragments now)

def freshClient (config : Config) (draw : SessionDraw P) (addr : Addr) (writer : Option Nat) :
    Option (ClientSession P) :=
  match config.authPaths with
  | none => some { ClientSession.new addr (Session.new draw true) draw.now with writer := writer }
  | some (ca, cert, key) =>
    let configured := configure ca cert key (Session.new draw true)
    match configured.1 with
    | .error _ => none
    | .ok _ => some { ClientSession.new addr configured.2 draw.now with writer := writer }

def peerControl (config : Config) (coins data : Bytes) (cs : ClientSession P) :
    ClientSession P :=
  match controlCall coins data with
  | none => cs
  | some call =>
    if (cs.called call).session.isEstablished && cs.data.isNone then
      (cs.called call).opened config.compLzo
    else cs.called call

def peerData (now : Time) (data : Bytes) (cs : ClientSession P) : ClientSession P :=
  if cs.isReady then { cs with data := cs.data.map fun ch => (decrypt P now data ch).2 } else cs

def peerDatagram (config : Config) (addr : Addr) (draw : Draw P) (data : Bytes)
    (entry : Option (ClientSession P)) : Option (ClientSession P) :=
  if data.length < 1 then entry
  else if data.headD 0 = Opcode.hardResetClient.value then
    (entry <|> freshClient config draw.session addr none).map
      (ClientSession.called · (.reset draw.now data))
  else if data.headD 0 = Opcode.hardResetServer.value then entry
  else
    entry.map fun cs =>
      if data.headD 0 = Opcode.control.value then
        peerControl config draw.coins data (cs.seen draw.now)
      else if data.headD 0 = Opcode.data.value then peerData draw.now data (cs.seen draw.now)
      else cs.seen draw.now

def ClientSession.swept (cs : ClientSession P) (now : Time) : ClientSession P :=
  { cs with data := cs.data.map (cleanupFragments now) }

def peerStep (config : Config) (addr : Addr) (entry : Option (ClientSession P)) :
    PeerEvent P → Option (ClientSession P)
  | .datagram draw data => peerDatagram config addr draw data entry
  | .tcpConnect draw writer => entry <|> freshClient config draw addr (some writer)
  | .tcpDisconnect => none
  | .cleanupStale now => entry.filter fun cs => !cs.isStale now config.keepaliveTimeout
  | .keepalive now => entry.map fun cs =>
      if cs.isReady && decide (now - cs.lastKeepalive ≥ config.keepaliveInterval) then
        { cs with lastKeepalive := now }
      else cs
  | .cleanupFragments now => entry.map fun cs => cs.swept now

/-- What `handle_udp_data` writes to the TUN for what `decrypt` gave it. -/
def writtenOf (result : Except PyError (Option Bytes)) : List Bytes :=
  match result with
  | .ok plain => if truthyBytes plain then [orEmpty plain] else []
  | .error _ => []

def peerWrites (entry : Option (ClientSession P)) : PeerEvent P → List Bytes
  | .datagram draw data =>
    if data.headD 0 = Opcode.data.value then
      match entry.filter ClientSession.isReady with
      | none => []
      | some cs => cs.data.toList.flatMap fun ch => writtenOf (decrypt P draw.now data ch).1
    else []
  | _ => []

section
variable {addr : Addr}

theorem called_bare (cs : ClientSession P) (call : ServerCall) :
    (cs.called call).bare = cs.bare.called call := by
  have hcall := serverCall_unassigned cs.session call
  simp only [ClientSession.called, ClientSession.bare, hcall]

theorem isReady_bare (cs : ClientSession P) : cs.bare.isReady = cs.isReady := by
  simp only [ClientSession.isReady, ClientSession.bare, Option.isSome_map]
  rfl

theorem freshClient_bare (config : Config) (draw : SessionDraw P) (addr : Addr)
    (writer : Option Nat) :
    (freshClient config draw addr writer).map ClientSession.bare =
      freshClient config draw addr writer := by
  unfold freshClient
  cases config.authPaths with
  | none => rfl
  | some paths =>
    obtain ⟨ca, cert, key⟩ := paths
    obtain ⟨certBytes, hconfigured⟩ := configure_frame ca cert key (Session.new draw true)
    simp only [hconfigured]
    cases (configure ca cert key (Session.new draw true)).1 with
    | error e => rfl
    | ok u => rfl

theorem freshClient_view (config : Config) (draw : SessionDraw P) (writer : Option Nat)
    (entry : Option (ClientSession P)) :
    (entry <|> freshClient config draw addr writer).map ClientSession.bare =
      (entry.map ClientSession.bare <|> freshClient config draw addr writer) := by
  cases entry with
  | none => exact freshClient_bare config draw addr writer
  | some cs => rfl

theorem peerControl_bare (config : Config) (coins data : Bytes) (cs : ClientSession P) :
    (peerControl config coins data cs).bare = peerControl config coins data cs.bare := by
  unfold peerControl
  cases controlCall coins data with
  | none => rfl
  | some call =>
    have hest : (cs.called call).bare.session.isEstablished =
        (cs.called call).session.isEstablished := rfl
    have hdata : cs.bare.data.isNone = cs.data.isNone := Option.isNone_map
    simp only [hdata, ← called_bare, hest]
    split
    · rfl
    · rfl

theorem peerData_bare (now : Time) (data : Bytes) (cs : ClientSession P) :
    (peerData now data cs).bare = peerData now data cs.bare := by
  unfold peerData
  rw [isReady_bare]
  cases cs.isReady with
  | false => rfl
  | true =>
    have hopened (ch : DataChannel) :
        (decrypt P now data ch).2.unsent = (decrypt P now data ch.unsent).2 :=
      (congrArg Prod.snd (decrypt_blind P now data ch)).symm
    simp only [ClientSession.bare, if_true, Option.map_map, Function.comp_def, hopened]

theorem peerDatagram_bare (config : Config) (draw : Draw P) (data : Bytes)
    (entry : Option (ClientSession P)) :
    (peerDatagram config addr draw data entry).map ClientSession.bare =
      peerDatagram config addr draw data (entry.map ClientSession.bare) := by
  have hseen (cs : ClientSession P) : (cs.seen draw.now).bare = cs.bare.seen draw.now := rfl
  unfold peerDatagram
  by_cases hne : data.length < 1
  · rw [if_pos hne, if_pos hne]
  rw [if_neg hne, if_neg hne]
  by_cases hreset : data.headD 0 = Opcode.hardResetClient.value
  · rw [if_pos hreset, if_pos hreset, ← freshClient_view, Option.map_map, Option.map_map]
    exact Option.map_congr fun cs _ => called_bare cs _
  rw [if_neg hreset, if_neg hreset]
  by_cases hack : data.headD 0 = Opcode.hardResetServer.value
  · rw [if_pos hack, if_pos hack]
  rw [if_neg hack, if_neg hack, Option.map_map, Option.map_map]
  refine Option.map_congr fun cs _ => ?_
  simp only [Function.comp_apply, ← hseen]
  by_cases hcontrol : data.headD 0 = Opcode.control.value
  · rw [if_pos hcontrol, if_pos hcontrol, peerControl_bare]
  rw [if_neg hcontrol, if_neg hcontrol]
  by_cases hdata : data.headD 0 = Opcode.data.value
  · rw [if_pos hdata, if_pos hdata, peerData_bare]
  · rw [if_neg hdata, if_neg hdata]

/-- The view is all a peer's machine needs of an entry. -/
theorem peerStep_bare (config : Config) (addr : Addr) (entry : Option (ClientSession P))
    (e : PeerEvent P) :
    (peerStep config addr entry e).map ClientSession.bare =
      peerStep config addr (entry.map ClientSession.bare) e := by
  cases e with
  | datagram draw data => exact peerDatagram_bare config draw data entry
  | tcpConnect draw writer => exact freshClient_view config draw (some writer) entry
  | tcpDisconnect => rfl
  | cleanupStale now =>
    cases entry with
    | none => rfl
    | some cs =>
      have hstale : cs.bare.isStale now config.keepaliveTimeout =
          cs.isStale now config.keepaliveTimeout := rfl
      simp only [peerStep, Option.map_some, Option.filter_some, hstale]
      split
      · rfl
      · rfl
  | keepalive now =>
    simp only [peerStep, Option.map_map]
    refine Option.map_congr fun cs _ => ?_
    have hlast : cs.bare.lastKeepalive = cs.lastKeepalive := rfl
    simp only [Function.comp_apply, isReady_bare, hlast]
    split
    · rfl
    · rfl
  | cleanupFragments now =>
    simp only [peerStep, Option.map_map]
    refine Option.map_congr fun cs _ => ?_
    simp only [Function.comp_apply, ClientSession.swept, ClientSession.bare, Option.map_map]
    rfl

theorem peerWrites_bare (entry : Option (ClientSession P)) (e : PeerEvent P) :
    peerWrites (entry.map ClientSession.bare) e = peerWrites entry e := by
  have hopened (now : Time) (data : Bytes) (ch : DataChannel) :
      (decrypt P now data ch.unsent).1 = (decrypt P now data ch).1 := by
    rw [decrypt_blind P now data ch]
  cases e with
  | datagram draw data =>
    cases entry with
    | none => rfl
    | some cs =>
      simp only [peerWrites, Option.map_some, Option.filter_some, isReady_bare]
      cases cs.isReady with
      | false => rfl
      | true =>
        cases hdata : cs.data with
        | none => simp [ClientSession.bare, hdata]
        | some ch => simp [ClientSession.bare, hdata, hopened]
  | tcpConnect draw writer => rfl
  | tcpDisconnect => rfl
  | cleanupStale now => rfl
  | keepalive now => rfl
  | cleanupFragments now => rfl

theorem peerWrites_other (entry : Option (ClientSession P)) (draw : Draw P) {data : Bytes}
    (hdata : data.headD 0 ≠ Opcode.data.value) :
    peerWrites entry (.datagram draw data) = [] := if_neg hdata

end
end PyVpn
