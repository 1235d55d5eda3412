import PyVpn.Survival

/-! What the endpoints do with bytes that are no packet. Most shapes are dropped; a
reset that is cut short and an unknown control message raise out of the callback, on
the server after the entry was inserted. -/
namespace PyVpn
open EventRun
variable {P : Primitives}

def UnknownType (payload : Bytes) : Prop :=
  payload ≠ [] ∧ ∃ e, MessageType.ofValue (payload.headD 0) = .error e

def BadAddress (payload : Bytes) : Prop :=
  payload ≠ [] ∧ payload.headD 0 = MessageType.ipAssign.value ∧
    ∃ e, VpnClient.decodeUtf8 (payload.drop 1) = .error e

/-- Bytes that are no packet: cut short, with an unknown opcode, or a control message
that is empty, unknown, or assigns an address that is no text. -/
def Malformed (data : Bytes) : Prop :=
  data.length < headerSize ∨ (∃ e, Opcode.ofValue (data.headD 0) = .error e) ∨
    data.headD 0 = Opcode.control.value ∧ (data.drop headerSize = [] ∨
      UnknownType (data.drop headerSize) ∨ BadAddress (data.drop headerSize))

def SameButSeen (server after : VpnServer P) : Prop :=
  ∃ clients, after = { server with clients := clients } ∧
    ∀ addr, (clients.lookup addr).map (fun cs => cs.seen 0) =
      (server.clients.lookup addr).map (fun cs => cs.seen 0)

/-- The callback returned, and changed nothing but the time. -/
def ServerDropped (server : VpnServer P) (result : Except PyError Unit × VpnServer P) : Prop :=
  result.1 = .ok () ∧ SameButSeen server result.2

def ClientDropped (client : VpnClient P) (result : Except PyError Unit × VpnClient P) : Prop :=
  ∃ seen, result = (.ok (), { client with lastSeen := seen })

/-- A cut-off `HARD_RESET_CLIENT`, or an unknown control message of a known client. -/
def ServerStumbles (server : VpnServer P) (data : Bytes) (addr : Addr) : Prop :=
  (data.length < headerSize ∧ data.headD 0 = Opcode.hardResetClient.value) ∨
    (headerSize ≤ data.length ∧ data.headD 0 = Opcode.control.value ∧
      UnknownType (data.drop headerSize) ∧ (server.clients.lookup addr).isSome = true)

/-- A cut-off `HARD_RESET_SERVER`, an unknown control message, or an address that is no
text. -/
def ClientStumbles (data : Bytes) : Prop :=
  (data.length < headerSize ∧ data.headD 0 = Opcode.hardResetServer.value) ∨
    (headerSize ≤ data.length ∧ data.headD 0 = Opcode.control.value ∧
      (UnknownType (data.drop headerSize) ∨ BadAddress (data.drop headerSize)))

theorem decodePacket_short {data : Bytes} (h : data.length < headerSize) :
    decodePacket data = .error .valueError := if_pos h

theorem decodePacket_long {data : Bytes} {op : Opcode} (hlen : headerSize ≤ data.length)
    (hop : data.headD 0 = op.value) :
    decodePacket data = .ok (op, intOfBytes (slice data 1 headerSize), data.drop headerSize) := by
  rw [decodePacket, if_neg (Nat.not_lt.mpr hlen), hop, ofValue_value]

theorem Malformed.short {data : Bytes} (h : Malformed data) {op : Opcode}
    (hop : data.headD 0 = op.value) (hne : op ≠ .control) : data.length < headerSize := by
  obtain hshort | ⟨e, hunknown⟩ | ⟨hcontrol, -⟩ := h
  · exact hshort
  · rw [hop, ofValue_value] at hunknown
    cases hunknown
  · rw [hop] at hcontrol
    cases op <;> simp [Opcode.value] at hcontrol hne

theorem Malformed.control {data : Bytes} (h : Malformed data)
    (hop : data.headD 0 = Opcode.control.value) (hlen : headerSize ≤ data.length) :
    data.drop headerSize = [] ∨ UnknownType (data.drop headerSize) ∨
      BadAddress (data.drop headerSize) := by
  obtain hshort | ⟨e, hunknown⟩ | ⟨-, hcontrol⟩ := h
  · exact absurd hlen (Nat.not_le.mpr hshort)
  · rw [hop, ofValue_value] at hunknown
    cases hunknown
  · exact hcontrol

theorem BadAddress.not_unknown {payload : Bytes} (h : BadAddress payload) :
    ¬ UnknownType payload := by
  intro h
  obtain ⟨-, e, hunknown⟩ := h
  rw [h.2.1] at hunknown
  cases hunknown

section Server
variable {self : VpnServer P} {draw : Draw P} {data : Bytes} {addr : Addr} {cs : ClientSession P}

theorem ServerDropped.ignored : ServerDropped self (.ok (), self) :=
  ⟨rfl, self.clients, rfl, fun _ => rfl⟩

theorem ServerDropped.seen (hcs : self.clients.lookup addr = some cs) (now : Time) :
    ServerDropped self
      (.ok (), { self with clients := self.clients.insert addr (cs.seen now) }) := by
  refine ⟨rfl, _, rfl, ?_⟩
  intro a
  by_cases ha : a = addr
  · subst ha
    rw [AList.lookup_insert, hcs]
    rfl
  · rw [AList.lookup_insert_ne ha]

/-- A cut-off reset raises, whether or not the address has an entry. -/
theorem handleUdpData_cut_reset (hshort : data.length < headerSize)
    (hop : data.headD 0 = Opcode.hardResetClient.value) :
    (handleUdpData draw data addr self).1 ≠ .ok () := by
  have hne : ¬ data.length < 1 := not_empty_of_head hop (by decide)
  have hraise (cs : ClientSession P) :
      (serverHandleReset draw.now data cs.session).1 = .error .valueError := by
    simp [serverHandleReset, decodePacket_short hshort]
  unfold handleUdpData
  simp only [if_neg hne, if_pos hop, Py.bind_run]
  cases (getOrCreateSession draw.session addr none self) with
  | mk r self' =>
    cases r with
    | error e => simp
    | ok cs => simp [callHandler, storeClient, hraise cs]

theorem serverDropped_control (hcs : self.clients.lookup cs.addr = some cs)
    (hmalformed : Malformed data) (hop : data.headD 0 = Opcode.control.value) :
    ServerDropped self (handleControl draw.coins (cs.seen draw.now) data
      { self with clients := self.clients.insert cs.addr (cs.seen draw.now) }) ↔
      ¬ (headerSize ≤ data.length ∧ UnknownType (data.drop headerSize)) := by
  have hseen := ServerDropped.seen hcs draw.now
  unfold handleControl
  by_cases hshort : data.length < headerSize
  · rw [decodePacket_short hshort]
    have hlen : ¬ headerSize ≤ data.length := Nat.not_le.mpr hshort
    simp only [hlen, false_and, not_false_eq_true, iff_true]
    exact hseen
  · have hlen : headerSize ≤ data.length := Nat.le_of_not_lt hshort
    rw [decodePacket_long hlen hop]
    simp only [hlen, true_and]
    obtain hempty | hunknown | hbad := hmalformed.control hop hlen
    · have hknown : ¬ UnknownType (data.drop headerSize) := fun h => h.1 hempty
      simp only [hempty, List.length_nil, Nat.zero_lt_one, if_true] at hknown ⊢
      simp only [hknown, not_false_eq_true, iff_true]
      exact hseen
    · have hsome : ¬ (data.drop headerSize).length < 1 := by
        have hne := List.length_pos_iff.mpr hunknown.1
        omega
      obtain ⟨e, he⟩ := hunknown.2
      simp only [if_neg hsome, Py.bind_run, Py.ofExcept_run, he, hunknown, not_true_eq_false,
        iff_false]
      intro h
      cases h.1
    · have hsome : ¬ (data.drop headerSize).length < 1 := by
        have hne := List.length_pos_iff.mpr hbad.1
        omega
      have htype : MessageType.ofValue ((data.drop headerSize).headD 0) = .ok .ipAssign := by
        rw [hbad.2.1]
        rfl
      simp only [if_neg hsome, Py.bind_run, Py.ofExcept_run, htype, hbad.not_unknown,
        not_false_eq_true, iff_true]
      exact hseen

theorem serverDropped_data (hcs : self.clients.lookup cs.addr = some cs)
    (hshort : data.length < headerSize) :
    ServerDropped self (handleData draw.now (cs.seen draw.now) data
      { self with clients := self.clients.insert cs.addr (cs.seen draw.now) }) := by
  have hseen := ServerDropped.seen hcs draw.now
  unfold handleData
  cases hdata : (cs.seen draw.now).data with
  | none => exact hseen
  | some ch =>
    by_cases hready : (cs.seen draw.now).isReady = true
    · have hrefused : Refused ch data := by
        intro payload hpayload
        simp [dataPayload, decodePacket_short hshort] at hpayload
      have hsame : { cs.seen draw.now with data := some ch } = cs.seen draw.now := by
        rw [← hdata]
      have hstored : ServerDropped self (.ok (), { self with
          clients := self.clients.insert cs.addr
            { cs.seen draw.now with data := some ch } }) := by
        rw [hsame]
        exact hseen
      have haddr : (cs.seen draw.now).addr = cs.addr := rfl
      simp only [if_pos hready, Py.bind_run, onChannel, decrypt_of_refused hrefused, storeClient,
        Py.assign_run, Py.ofExcept_run, haddr, AList.insert_insert, truthyBytes, Option.any_none]
      exact hstored
    · simp only [if_neg hready]
      exact hseen

theorem serverDropped_iff (haddr : Addressed self) (hmalformed : Malformed data) :
    ServerDropped self (handleUdpData draw data addr self) ↔ ¬ ServerStumbles self data addr := by
  by_cases hreset : data.headD 0 = Opcode.hardResetClient.value
  · have hshort := hmalformed.short hreset (by decide)
    have hraises : (handleUdpData draw data addr self).1 ≠ .ok () :=
      handleUdpData_cut_reset hshort hreset
    have hstumbles : ServerStumbles self data addr := .inl ⟨hshort, hreset⟩
    simp only [hstumbles, not_true_eq_false, iff_false]
    exact fun h => hraises h.1
  have hstumbles : ServerStumbles self data addr ↔ headerSize ≤ data.length ∧
      data.headD 0 = Opcode.control.value ∧ UnknownType (data.drop headerSize) ∧
        (self.clients.lookup addr).isSome = true := by
    unfold ServerStumbles
    simp only [hreset, and_false, false_or]
  rw [hstumbles]
  cases hcs : self.clients.lookup addr with
  | none =>
    rw [handleUdpData_unknown hcs hreset]
    simp [ServerDropped.ignored]
  | some cs =>
    obtain rfl := haddr addr cs hcs
    have hseen := ServerDropped.seen hcs draw.now
    by_cases hne : data.length < 1
    · have hnil : data = [] := List.eq_nil_of_length_eq_zero (by omega)
      subst hnil
      have hrun : handleUdpData draw [] cs.addr self = (.ok (), self) := rfl
      rw [hrun]
      simp [ServerDropped.ignored, headerSize]
    by_cases hack : data.headD 0 = Opcode.hardResetServer.value
    · have hrun : handleUdpData draw data cs.addr self = (.ok (), self) := by
        unfold handleUdpData
        simp only [if_neg hne, if_neg hreset, if_pos hack]
        rfl
      have hcontrol : data.headD 0 ≠ Opcode.control.value := by
        rw [hack]
        decide
      rw [hrun]
      simp only [ServerDropped.ignored, hcontrol, false_and, and_false, not_false_eq_true]
    rw [handleUdpData_known hcs hne hreset hack]
    by_cases hop : data.headD 0 = Opcode.control.value
    · rw [if_pos hop, serverDropped_control hcs hmalformed hop]
      simp only [hop, Option.isSome_some, and_true, true_and]
    · rw [if_neg hop]
      simp only [hop, false_and, and_false, not_false_eq_true, iff_true]
      by_cases hdata : data.headD 0 = Opcode.data.value
      · rw [if_pos hdata]
        exact serverDropped_data hcs (hmalformed.short hdata (by decide))
      · rw [if_neg hdata]
        exact hseen

end Server
section Client
variable {self : VpnClient P} {now : Time} {coins data : Bytes}

theorem VpnClient.callHandler_raises {handler : Py (Session P) (List Bytes)} {e : PyError}
    (h : (handler self.session).1 = .error e) : (VpnClient.callHandler handler self).1 = .error e := by
  simp [VpnClient.callHandler, h]

theorem clientDropped_control (hmalformed : Malformed data)
    (hop : data.headD 0 = Opcode.control.value) :
    ClientDropped self
      (VpnClient.handleControl coins data { self with lastSeen := now }) ↔
      ¬ (headerSize ≤ data.length ∧
        (UnknownType (data.drop headerSize) ∨ BadAddress (data.drop headerSize))) := by
  have hseen : ClientDropped self (.ok (), { self with lastSeen := now }) := ⟨now, rfl⟩
  unfold VpnClient.handleControl
  by_cases hshort : data.length < headerSize
  · rw [decodePacket_short hshort]
    have hlen : ¬ headerSize ≤ data.length := Nat.not_le.mpr hshort
    simp only [hlen, false_and, not_false_eq_true, iff_true]
    exact hseen
  · have hlen : headerSize ≤ data.length := Nat.le_of_not_lt hshort
    rw [decodePacket_long hlen hop]
    simp only [hlen, true_and]
    obtain hempty | hunknown | hbad := hmalformed.control hop hlen
    · have hknown : ¬ (UnknownType (data.drop headerSize) ∨ BadAddress (data.drop headerSize)) :=
        fun h => h.elim (fun h => h.1 hempty) (fun h => h.1 hempty)
      simp only [hempty, List.length_nil, Nat.zero_lt_one, if_true] at hknown ⊢
      simp only [hknown, not_false_eq_true, iff_true]
      exact hseen
    · have hsome : ¬ (data.drop headerSize).length < 1 := by
        have hne := List.length_pos_iff.mpr hunknown.1
        omega
      obtain ⟨e, he⟩ := hunknown.2
      simp only [if_neg hsome, Py.bind_run, Py.ofExcept_run, he, hunknown, true_or,
        not_true_eq_false, iff_false]
      intro hdropped
      obtain ⟨seen, h⟩ := hdropped
      cases congrArg Prod.fst h
    · have hsome : ¬ (data.drop headerSize).length < 1 := by
        have hne := List.length_pos_iff.mpr hbad.1
        omega
      have htype : MessageType.ofValue ((data.drop headerSize).headD 0) = .ok .ipAssign := by
        rw [hbad.2.1]
        rfl
      obtain ⟨e, he⟩ := hbad.2.2
      simp only [if_neg hsome, Py.bind_run, Py.ofExcept_run, htype, he, hbad, or_true,
        not_true_eq_false, iff_false]
      intro hdropped
      obtain ⟨seen, h⟩ := hdropped
      cases congrArg Prod.fst h

theorem clientDropped_data (hshort : data.length < headerSize) :
    ClientDropped self (VpnClient.handleData now data { self with lastSeen := now }) := by
  unfold VpnClient.handleData
  cases hdata : self.data with
  | none =>
    refine ⟨now, ?_⟩
    simp only [Py.bind_run, Py.self_run, hdata]
    rfl
  | some ch =>
    have hrefused : Refused ch data := by
      intro payload hpayload
      simp [dataPayload, decodePacket_short hshort] at hpayload
    refine ⟨now, ?_⟩
    simp only [Py.bind_run, Py.self_run, hdata, decrypt_of_refused hrefused, Py.assign_run,
      Py.ofExcept_run, truthyBytes, Option.any_none]
    rfl

theorem clientDropped_iff (hmalformed : Malformed data) :
    ClientDropped self (VpnClient.handleUdpData now coins data self) ↔ ¬ ClientStumbles data := by
  unfold VpnClient.handleUdpData ClientStumbles
  by_cases hne : data.length < 1
  · have hnil : data = [] := List.eq_nil_of_length_eq_zero (by omega)
    subst hnil
    have hself : ClientDropped self (.ok (), self) := ⟨self.lastSeen, rfl⟩
    simp only [List.length_nil, Nat.zero_lt_one, if_true]
    refine iff_of_true hself ?_
    intro hraises
    obtain ⟨-, hop⟩ | ⟨hlen, -⟩ := hraises
    · cases hop
    · cases hlen
  simp only [if_neg hne, Py.bind_run, Py.assign_run]
  by_cases hack : data.headD 0 = Opcode.hardResetServer.value
  · have hshort := hmalformed.short hack (by decide)
    have hraises : (clientHandleResetAck data self.session).1 = .error .valueError := by
      simp [clientHandleResetAck, decodePacket_short hshort]
    simp only [hack, hshort, if_true, and_self, true_or, not_true_eq_false, iff_false]
    intro hdropped
    obtain ⟨seen, h⟩ := hdropped
    have hraised : (VpnClient.callHandler (clientHandleResetAck data)
        { self with lastSeen := now }).1 = .error .valueError :=
      VpnClient.callHandler_raises hraises
    rw [h] at hraised
    cases hraised
  simp only [hack, if_false, and_false, false_or]
  by_cases hop : data.headD 0 = Opcode.control.value
  · rw [if_pos hop, clientDropped_control hmalformed hop]
    simp only [hop, true_and]
  · rw [if_neg hop]
    simp only [hop, false_and, and_false, not_false_eq_true, iff_true]
    by_cases hdata : data.headD 0 = Opcode.data.value
    · rw [if_pos hdata]
      exact clientDropped_data (hmalformed.short hdata (by decide))
    · rw [if_neg hdata]
      exact ⟨now, rfl⟩

end Client

/-- Bytes that are no packet are dropped without effect, on either endpoint, exactly when
they are none of those it stumbles over. -/
theorem malformed_dropped_iff :
    (∀ self : VpnServer P, ServerReachable self → ∀ draw data addr, Malformed data →
      (ServerDropped self (handleUdpData draw data addr self) ↔
        ¬ ServerStumbles self data addr)) ∧
    (∀ self : VpnClient P, ClientReachable self → ∀ now coins data, Malformed data →
      (ClientDropped self (VpnClient.handleUdpData now coins data self) ↔
        ¬ ClientStumbles data)) :=
  ⟨fun _ hself _ _ _ hmalformed => serverDropped_iff hself.tables.addressed hmalformed,
    fun _ _ _ _ _ hmalformed => clientDropped_iff hmalformed⟩

namespace Transparent

def emptyControl : Bytes := encodePacket .control 0 []

theorem emptyControl_malformed : Malformed emptyControl := .inr (.inr ⟨rfl, .inl rfl⟩)

/-- Both endpoints drop an empty control message in the middle of a session. -/
theorem malformed_dropped_control :
    ServerDropped served (handleUdpData ⟨draw 5, []⟩ emptyControl peer served) ∧
    ClientDropped authConnected (VpnClient.handleUdpData 1 [] emptyControl authConnected) := by
  constructor
  · refine (malformed_dropped_iff.1 served served_reachable _ _ _ emptyControl_malformed).mpr ?_
    intro hraises
    obtain ⟨hlen, -⟩ | ⟨-, -, hunknown, -⟩ := hraises
    · exact absurd hlen (by decide)
    · exact hunknown.1 rfl
  · refine (malformed_dropped_iff.2 authConnected authConnected_reachable _ _ _
      emptyControl_malformed).mpr ?_
    intro hraises
    obtain ⟨hlen, -⟩ | ⟨-, -, hunknown | hbad⟩ := hraises
    · exact absurd hlen (by decide)
    · exact hunknown.1 rfl
    · exact hbad.1 rfl

/-- One byte raises out of the server's callback and leaves an entry behind. -/
theorem cut_reset_not_dropped :
    let data : Bytes := [Opcode.hardResetClient.value]
    let result := handleUdpData ⟨draw 5, []⟩ data peer started
    ServerReachable started ∧ Malformed data ∧ ¬ ServerDropped started result ∧
      (started.clients.lookup peer).isSome = false ∧
      (result.2.clients.lookup peer).isSome = true := by
  refine ⟨started_reachable, .inl (by decide), ?_, by decide +kernel, by decide +kernel⟩
  intro h
  exact handleUdpData_cut_reset (by decide) rfl h.1

end Transparent
end PyVpn
