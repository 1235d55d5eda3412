import PyVpn.ConnectLoop

/-! What an address assignment that raises leaves behind. `_handle_ip_assign` writes the
address and the connection flag before `set_ip` runs, and the routes before the privileges
are dropped; `_cleanup` clears the routes and nothing else. -/
namespace PyVpn
open EventRun
variable {P : Primitives}

/-- `set_ip` refuses the text or a command of it fails, or the route command cannot be
started. -/
def ConfiguringRaises (faults : AssignFaults) (config : Config) (ip : String) : Prop :=
  SetIpRefuses config ip ∨ faults.setIp ≠ none ∨ ¬ Runnable (subnetRoute config)

/-- A call that raises leaves address, flag and routes as they were. -/
def AllOrNothing (faults : AssignFaults) (ip : String) (client : VpnClient P) : Prop :=
  ∀ e, (VpnClient.handleIpAssignWith faults ip client).1 = .error e →
    let after := (VpnClient.handleIpAssignWith faults ip client).2
    after.assignedIp = client.assignedIp ∧ after.connected = client.connected ∧
      after.routesAdded = client.routesAdded

/-- Where the configuring raises the same address is in place already, and where it does not,
the privileges can be dropped. -/
structure Assignable (faults : AssignFaults) (ip : String) (client : VpnClient P) : Prop where
  refused : ConfiguringRaises faults client.config ip →
    client.assignedIp = some ip ∧ client.connected = true
  dropped : ¬ ConfiguringRaises faults client.config ip → truthy client.config.user = true →
    faults.dropPrivileges = none

/-- A connected client with an address has the subnet route on record. -/
def VpnClient.Routed (client : VpnClient P) : Prop :=
  client.connected = true → client.assignedIp ≠ none →
    subnetRoute client.config ∈ client.routesAdded

/-- The datagram brings no address, or its assignment is all or nothing. -/
def AssignsWhole (life : Life P) : LifeEvent P → Prop
  | .datagram faults now _ data => life.phase = .looping → ∀ ip, ipAssigned data = some ip →
      AllOrNothing faults ip { life.client with lastSeen := now }
  | _ => True

/-- An address comes where it can be assigned, and no client leaves the loop stopped but
connected with an address. -/
def AssignsCleanly (life : Life P) : LifeEvent P → Prop
  | .datagram faults _ _ data => life.phase = .looping → ∀ ip, ipAssigned data = some ip →
      Assignable faults ip life.client
  | .round _ => life.phase = .looping → life.client.running = false →
      life.client.connected = false ∨ life.client.assignedIp = none
  | _ => True

section Assigning
variable {faults : AssignFaults} {ip : String} {client after : VpnClient P} {now : Time}

theorem allOrNothing_iff (faults : AssignFaults) (ip : String) (client : VpnClient P) :
    AllOrNothing faults ip client ↔ Assignable faults ip client := by
  -- a call that stops early has written address and flag, and added no route
  have hearly {e : PyError} {effects : List ClientEffect}
      (hraises : ConfiguringRaises faults client.config ip)
      (hrun : VpnClient.handleIpAssignWith faults ip client = (.error e, { client with
        assignedIp := some ip, connected := true, effects := effects })) :
      AllOrNothing faults ip client ↔ Assignable faults ip client := by
    unfold AllOrNothing
    rw [hrun]
    constructor
    · intro hall
      have hkept := hall e rfl
      exact ⟨fun _ => ⟨hkept.1.symm, hkept.2.1.symm⟩, fun hnot => absurd hraises hnot⟩
    · intro hclean _ _
      obtain ⟨hip, hconnected⟩ := hclean.refused hraises
      exact ⟨hip.symm, hconnected.symm, rfl⟩
  have hassigns := handleIpAssignWith_assigns faults ip client
  generalize hrun : VpnClient.handleIpAssignWith faults ip client = out at hassigns
  cases hassigns with
  | refused hrefused => exact hearly (.inl hrefused) hrun
  | failed e hstarts hfails => exact hearly (.inr hfails) hrun
  | routed result more routes hstarts hset hroute hdrop =>
    have hfine : ¬ ConfiguringRaises faults client.config ip := by
      rintro (hrefused | hfailed | hunroutable)
      · exact hstarts hrefused
      · exact hfailed hset
      · exact hunroutable hroute
    unfold AllOrNothing
    rw [hrun]
    constructor
    · intro hall
      refine ⟨fun hraises => absurd hraises hfine, fun _ => hdrop.mp ?_⟩
      cases hresult : result with
      | ok u => rfl
      | error e =>
        have hkept := (hall e hresult).2.2
        simp at hkept
    · intro hclean e herror
      have herror : result = .error e := herror
      rw [hdrop.mpr (hclean.dropped hfine)] at herror
      cases herror

theorem assignable_seen :
    Assignable faults ip { client with lastSeen := now } ↔ Assignable faults ip client :=
  ⟨fun h => ⟨h.refused, h.dropped⟩, fun h => ⟨h.refused, h.dropped⟩⟩

theorem VpnClient.Routed.assigned (h : client.Routed) (hclean : Assignable faults ip client) :
    (VpnClient.handleIpAssignWith faults ip client).2.Routed := by
  have hinPlace (hraises : ConfiguringRaises faults client.config ip) :
      subnetRoute client.config ∈ client.routesAdded := by
    obtain ⟨hip, hconnected⟩ := hclean.refused hraises
    exact h hconnected (by rw [hip]; exact Option.some_ne_none ip)
  have hassigns := handleIpAssignWith_assigns faults ip client
  generalize VpnClient.handleIpAssignWith faults ip client = out at hassigns
  cases hassigns with
  | refused hrefused => exact fun _ _ => hinPlace (.inl hrefused)
  | failed e hstarts hfails => exact fun _ _ => hinPlace (.inr hfails)
  | routed result more routes hstarts hset hroute hdrop =>
    exact fun _ _ => List.mem_append_right _ List.mem_cons_self

theorem VpnClient.Routed.same (h : client.Routed) (haddress : SameAddress client after)
    (hconfig : SameConfig client after) : after.Routed := by
  intro hconnected hip
  rw [haddress.2.1] at hconnected
  rw [haddress.1] at hip
  rw [haddress.2.2.1, hconfig]
  exact h hconnected hip

theorem VpnClient.Routed.unassigned (h : client.assignedIp = none) : client.Routed :=
  fun _ hip => absurd h hip

theorem VpnClient.Routed.disconnected (h : client.connected = false) : client.Routed := by
  intro hconnected
  rw [h] at hconnected
  cases hconnected

theorem routed_attempt (life : Life P) (draw : SessionDraw P) (opened : Bool)
    (h : life.client.Routed) : (life.attempt draw opened).client.Routed := by
  have hconfigured := attempt_unassigned draw life.client
  have hstarted : (VpnClient.connect opened (VpnClient.attempt draw life.client).2).2.assignedIp =
      none := (connect_assignedIp opened _).trans hconfigured
  unfold Life.attempt
  dsimp only
  split
  · split
    · exact .unassigned hconfigured
    · split
      · exact .unassigned hstarted
      · split
        · exact .unassigned hstarted
        · exact .unassigned hstarted
  · exact h

theorem routed_round (life : Life P) (now : Time) (h : life.client.Routed) :
    (life.round now).client.Routed ↔ (life.client.running = false →
      life.client.connected = false ∨ life.client.assignedIp = none) := by
  obtain ⟨data, ⟨hstopped, hrun⟩ | ⟨hrunning, -, hrun⟩ | ⟨hrunning, -, hrun⟩⟩ := round_run life now
  · rw [hrun, hstopped]
    constructor
    · intro hrouted _
      cases hconnected : life.client.connected with
      | false => exact .inl rfl
      | true =>
        by_contra hip
        exact List.not_mem_nil (hrouted hconnected fun hnone => hip (.inr hnone))
    · intro hclean
      cases hclean rfl with
      | inl hdisconnected => exact .disconnected hdisconnected
      | inr hnone => exact .unassigned hnone
  · rw [hrun, hrunning]
    exact iff_of_true (.disconnected rfl) fun hstopped => by cases hstopped
  · rw [hrun, hrunning]
    exact iff_of_true h fun hstopped => by cases hstopped

theorem routed_datagram (h : client.Routed) (faults : AssignFaults) (now : Time)
    (coins data : Bytes) :
    ((∀ ip, ipAssigned data = some ip → AllOrNothing faults ip { client with lastSeen := now }) ∧
      (VpnClient.handleUdpDataWith faults now coins data client).2.Routed) ↔
      ∀ ip, ipAssigned data = some ip → Assignable faults ip client := by
  have hseen : ({ client with lastSeen := now }).Routed := h
  obtain ⟨hnone, haddress, hconfig⟩ | ⟨ip, hip, hrun⟩ :=
    handleUdpDataWith_cases faults now coins data client
  · rw [hnone]
    exact iff_of_true ⟨nofun, h.same haddress hconfig⟩ nofun
  · simp only [hip, hrun, Option.some.injEq, forall_eq', allOrNothing_iff, assignable_seen]
    exact and_iff_left_of_imp fun hclean => hseen.assigned (assignable_seen.mpr hclean)

theorem routed_step (life : Life P) (e : LifeEvent P) (h : life.client.Routed) :
    (AssignsWhole life e ∧ (lifeStep life e).client.Routed) ↔ AssignsCleanly life e := by
  cases e with
  | attempt draw opened =>
    refine iff_of_true ⟨trivial, ?_⟩ trivial
    unfold lifeStep
    cases life.phase with
    | idle => exact routed_attempt life draw opened h
    | looping => exact h
    | finished => exact h
  | round now =>
    simp only [AssignsWhole, AssignsCleanly, true_and]
    unfold lifeStep
    cases hphase : life.phase with
    | idle => exact iff_of_true h nofun
    | finished => exact iff_of_true h nofun
    | looping => simpa using routed_round life now h
  | datagram faults now coins data =>
    simp only [AssignsWhole, AssignsCleanly]
    unfold lifeStep
    cases hphase : life.phase with
    | idle => exact iff_of_true ⟨nofun, h⟩ nofun
    | finished => exact iff_of_true ⟨nofun, h⟩ nofun
    | looping => simpa using routed_datagram h faults now coins data
  | tunReadable nonces packet =>
    refine iff_of_true ⟨trivial, ?_⟩ trivial
    unfold lifeStep
    cases life.phase with
    | idle => exact h
    | finished => exact h
    | looping =>
      exact h.same (onTunReadable_sameAddress nonces packet life.client)
        (onTunReadable_config nonces packet life.client)
  | stop =>
    refine iff_of_true ⟨trivial, ?_⟩ trivial
    have hstep : (lifeStep life .stop).client = VpnClient.stop life.client := by
      unfold lifeStep
      cases life.phase with
      | idle => rfl
      | looping => rfl
      | finished => rfl
    rw [hstep]
    exact .disconnected rfl

end Assigning

/-- A call is all or nothing exactly where the address is assignable. In a run all calls are,
and every connected client with an address has its route on record, exactly where each
address comes so and no client leaves the loop stopped but connected. -/
theorem assignment_whole_iff :
    (∀ faults ip (client : VpnClient P), AllOrNothing faults ip client ↔
      Assignable faults ip client) ∧
    ∀ config (draw : SessionDraw P) (events : List (LifeEvent P)),
      (Meets lifeStep AssignsWhole events (.new config draw) ∧
        ∀ before later, events = before ++ later →
          (run lifeStep before (.new config draw)).client.Routed) ↔
        Meets lifeStep AssignsCleanly events (.new config draw) := by
  refine ⟨allOrNothing_iff, ?_⟩
  intro config draw events
  have hnew : (Life.new config draw).client.Routed := .disconnected rfl
  exact meets_always_iff (J := fun _ => True) (I := fun life : Life P => life.client.Routed)
    (fun _ _ _ => trivial) (fun life e _ h => routed_step life e h) events trivial hnew

namespace Transparent

def joining (now : Time) : List (LifeEvent primitives) :=
  [.attempt { draw 7 with now := now } true, .datagram {} now [] (resetAckPacket 5),
    .datagram {} now [] (serverHelloPacket 5), .round now]

def addressInPlace : AssignFaults := { setIp := some .calledProcessError }

/-- The address is assigned, the server falls silent, and the second connection is about to
get the same address. -/
def rejoined : Life primitives :=
  run lifeStep (joining 0 ++ [.datagram {} 0 [] assignPacket, .round 200] ++ joining 205)
    (.new clientConfig (draw 7))

/-- The second assignment raises and leaves a connected client without its route. -/
theorem rejoined_half_assigned :
    ¬ AllOrNothing addressInPlace "10.8.0.2" rejoined.client ∧
      ¬ (lifeStep rejoined (.datagram addressInPlace 205 [] assignPacket)).client.Routed := by
  have hbefore : rejoined.client.assignedIp = none := by decide +kernel
  constructor
  · rw [allOrNothing_iff]
    intro hclean
    have hraises : ConfiguringRaises addressInPlace rejoined.client.config "10.8.0.2" :=
      .inr (.inl (Option.some_ne_none _))
    have hinPlace := (hclean.refused hraises).1
    rw [hbefore] at hinPlace
    cases hinPlace
  · intro hrouted
    have hroutes := hrouted (by decide +kernel) (by decide +kernel)
    revert hroutes
    decide +kernel

end Transparent
end PyVpn
