import PyVpn.IpAssignment

/-! The life of a client. `run` calls `_connect` until it is told to stop, and `_connect`
loops until the server has been silent for too long. What the system refuses while an
address is configured is part of the datagram that brings the address. -/
namespace PyVpn
open EventRun
variable {P : Primitives}

namespace VpnClient

/-- The body of the loop in `_connect`, up to the `sleep`; it says whether it breaks. -/
def loopBody (now : Time) (self : VpnClient P) : Bool × VpnClient P :=
  let self := { self with data := self.data.map (cleanupFragments now) }
  let self := openDataChannel self
  let timedOut := decide (now - self.lastSeen > self.config.keepaliveTimeout)
  if self.handshakeDone && truthy self.assignedIp then
    if timedOut then (true, { self with connected := false }) else (false, self)
  else if self.handshakeDone && timedOut then (true, { self with connected := false })
  else (false, self)

end VpnClient

/-- Where `run` is: between two calls of `_connect`, in the loop of one, or over. -/
inductive Phase where
  | idle
  | looping
  | finished
  deriving DecidableEq

structure Life (P : Primitives) where
  client : VpnClient P
  phase : Phase
  /-- When the present call of `_connect` began. -/
  startedAt : Time

def Life.new (config : Config) (draw : SessionDraw P) : Life P where
  client := VpnClient.new config draw
  phase := .idle
  startedAt := draw.now

inductive LifeEvent (P : Primitives) where
  | attempt (draw : SessionDraw P) (opened : Bool)
  | round (now : Time)
  | datagram (faults : AssignFaults) (now : Time) (coins data : Bytes)
  | tunReadable (nonces : Nat → Nonce) (packet : Bytes)
  | stop

/-- `run`, once `_connect` has returned. -/
def phaseAfter (client : VpnClient P) : Phase :=
  if !client.running then .finished else if client.connected then .finished else .idle

def Life.leave (life : Life P) (client : VpnClient P) : Life P :=
  { life with client := client, phase := phaseAfter client }

/-- The loop of `run`, up to the loop of `_connect`. -/
def Life.attempt (draw : SessionDraw P) (opened : Bool) (life : Life P) : Life P :=
  if truthy life.client.config.remote && (life.client.running || !life.client.connected) then
    let configured := VpnClient.attempt draw life.client
    match configured.1 with
    | .error _ => { life with client := configured.2, phase := .finished }
    | .ok () =>
      let started := VpnClient.connect opened configured.2
      match started.1 with
      | .error _ => { life with client := started.2, phase := .finished }
      | .ok () =>
        if started.2.config.isTcp && !opened then life.leave started.2
        else { client := started.2, phase := .looping, startedAt := draw.now }
  else { life with phase := .finished }

/-- One turn of `while self._running` in `_connect`. -/
def Life.round (now : Time) (life : Life P) : Life P :=
  if life.client.running then
    let result := VpnClient.loopBody now life.client
    if result.1 then life.leave (VpnClient.cleanup result.2) else { life with client := result.2 }
  else life.leave (VpnClient.cleanup life.client)

def lifeStep (life : Life P) (e : LifeEvent P) : Life P :=
  match life.phase, e with
  | .idle, .attempt draw opened => life.attempt draw opened
  | .looping, .round now => life.round now
  | .looping, .datagram faults now coins data => { life with
      client := (VpnClient.handleUdpDataWith faults now coins data life.client).2 }
  | .looping, .tunReadable nonces packet => { life with
      client := (VpnClient.onTunReadable nonces packet life.client).2 }
  | _, .stop => { life with client := VpnClient.stop life.client }
  | _, _ => life

/-- The loop goes on: `_running` is true and `_connect` has not returned. -/
structure Life.InLoop (life : Life P) : Prop where
  looping : life.phase = .looping
  running : life.client.running = true

/-- Nothing was received since the start and the last datagram for longer than the timeout. -/
def Life.SilentAt (life : Life P) (now : Time) : Prop :=
  now - max life.startedAt life.client.lastSeen > life.client.config.keepaliveTimeout

/-- A turn at a silent time leaves the loop with `_connected` false, and `run` tries again. -/
def Reconnects (life : Life P) : LifeEvent P → Prop
  | .round now => life.InLoop → life.SilentAt now →
      (lifeStep life (.round now)).client.connected = false ∧
        (lifeStep life (.round now)).phase = .idle
  | _ => True

/-- A turn at a silent time comes after the handshake was completed. -/
def HandshakeOver (life : Life P) : LifeEvent P → Prop
  | .round now => life.InLoop → life.SilentAt now →
      life.client.handshakeDone = true ∨ life.client.session.isEstablished = true
  | _ => True

section Rounds
variable {client : VpnClient P} {life : Life P} {now : Time}

theorem openDataChannel_frame (client : VpnClient P) :
    ∃ data, VpnClient.openDataChannel client = { client with
      handshakeDone := client.handshakeDone || client.session.isEstablished
      data := data } := by
  unfold VpnClient.openDataChannel
  by_cases hopen : (!client.handshakeDone && client.session.isEstablished) = true
  · obtain ⟨hdone, hest⟩ := Bool.and_eq_true_iff.mp hopen
    rw [if_pos hopen, hest, Bool.or_true]
    exact ⟨_, rfl⟩
  · refine ⟨client.data, ?_⟩
    rw [if_neg hopen]
    cases hdone : client.handshakeDone with
    | true => rw [Bool.true_or, ← hdone]
    | false =>
      cases hest : client.session.isEstablished with
      | true => exact absurd (by rw [hdone, hest]; rfl) hopen
      | false => rw [Bool.or_false, ← hdone]

/-- A turn that goes on is a `tick`, and so is one that breaks. -/
theorem round_tick (hrunning : life.client.running = true) :
    (life.round now).client = VpnClient.tick now life.client := by
  unfold Life.round VpnClient.loopBody VpnClient.tick
  simp only [if_pos hrunning]
  split
  · split
    · rfl
    · rfl
  · split
    · rfl
    · rfl

def VpnClient.breaks (now : Time) (self : VpnClient P) : Bool :=
  (self.handshakeDone || self.session.isEstablished) &&
    decide (now - self.lastSeen > self.config.keepaliveTimeout)

theorem loopBody_run (now : Time) (client : VpnClient P) :
    ∃ data, VpnClient.loopBody now client = (client.breaks now, { client with
      handshakeDone := client.handshakeDone || client.session.isEstablished
      data := data
      connected := client.connected && !client.breaks now }) := by
  obtain ⟨data, hopened⟩ := openDataChannel_frame
    { client with data := client.data.map (cleanupFragments now) }
  refine ⟨data, ?_⟩
  unfold VpnClient.loopBody VpnClient.breaks
  simp only [hopened]
  cases hdone : client.handshakeDone || client.session.isEstablished with
  | false => simp
  | true =>
    cases htimedOut : decide (now - client.lastSeen > client.config.keepaliveTimeout) with
    | false => simp
    | true => simp

theorem round_run (life : Life P) (now : Time) :
    ∃ data,
      (life.client.running = false ∧
        life.round now = life.leave (VpnClient.cleanup life.client)) ∨
      (life.client.running = true ∧ life.client.breaks now = true ∧
        life.round now = life.leave (VpnClient.cleanup { life.client with
          handshakeDone := true, data := data, connected := false })) ∨
      (life.client.running = true ∧ life.client.breaks now = false ∧
        life.round now = { life with client := { life.client with
          handshakeDone := life.client.handshakeDone || life.client.session.isEstablished
          data := data } }) := by
  obtain ⟨data, hbody⟩ := loopBody_run now life.client
  refine ⟨data, ?_⟩
  unfold Life.round
  cases hrunning : life.client.running with
  | false => exact .inl ⟨rfl, rfl⟩
  | true =>
    simp only [if_true, hbody]
    cases hbreaks : life.client.breaks now with
    | false => exact .inr (.inr ⟨trivial, rfl, by simp⟩)
    | true =>
      have hover : (life.client.handshakeDone || life.client.session.isEstablished) = true :=
        (Bool.and_eq_true_iff.mp hbreaks).1
      exact .inr (.inl ⟨trivial, rfl, by simp [hover]⟩)

theorem breaks_of_silent (h : life.SilentAt now) :
    life.client.breaks now =
      (life.client.handshakeDone || life.client.session.isEstablished) := by
  have hseen : now - life.client.lastSeen > life.client.config.keepaliveTimeout :=
    lt_of_lt_of_le h (sub_le_sub_left (le_max_right _ _) now)
  rw [VpnClient.breaks, decide_eq_true hseen, Bool.and_true]

/-- A turn at a silent time leaves the loop exactly when the handshake was completed. -/
theorem round_left_iff (hloop : life.InLoop) (hsilent : life.SilentAt now) :
    (life.round now).client.connected = false ∧ (life.round now).phase = .idle ↔
      life.client.handshakeDone = true ∨ life.client.session.isEstablished = true := by
  rw [← Bool.or_eq_true_iff, ← breaks_of_silent hsilent]
  obtain ⟨data, ⟨hstopped, -⟩ | ⟨-, hbreaks, hrun⟩ | ⟨-, hbreaks, hrun⟩⟩ := round_run life now
  · rw [hloop.running] at hstopped
    cases hstopped
  · have hphase : phaseAfter (VpnClient.cleanup { life.client with
        handshakeDone := true, data := data, connected := false }) = .idle := by
      simp [phaseAfter, VpnClient.cleanup, hloop.running]
    rw [hrun, hbreaks]
    exact iff_of_true ⟨rfl, hphase⟩ rfl
  · rw [hrun, hbreaks]
    refine iff_of_false ?_ Bool.false_ne_true
    intro hleft
    have hidle : life.phase = .idle := hleft.2
    rw [hloop.looping] at hidle
    cases hidle

theorem lifeStep_round (hphase : life.phase = .looping) :
    lifeStep life (.round now) = life.round now := by
  unfold lifeStep
  rw [hphase]

theorem reconnects_iff (life : Life P) (e : LifeEvent P) :
    Reconnects life e ↔ HandshakeOver life e := by
  cases e with
  | round now =>
    refine forall_congr' fun hloop => forall_congr' fun hsilent => ?_
    rw [lifeStep_round hloop.looping]
    exact round_left_iff hloop hsilent
  | attempt draw opened => exact Iff.rfl
  | datagram faults now coins data => exact Iff.rfl
  | tunReadable nonces packet => exact Iff.rfl
  | stop => exact Iff.rfl

theorem unanswered_turns (hloop : life.InLoop)
    (hopen : (life.client.handshakeDone || life.client.session.isEstablished) = false)
    (turns : List Time) : (run lifeStep (turns.map .round) life).InLoop := by
  induction turns generalizing life with
  | nil => exact hloop
  | cons now turns ih =>
    have hstays : life.client.breaks now = false := by
      rw [VpnClient.breaks, hopen, Bool.false_and]
    rw [List.map_cons, run_cons, lifeStep_round hloop.looping]
    obtain ⟨data, ⟨hstopped, -⟩ | ⟨-, hbreaks, -⟩ | ⟨-, -, hrun⟩⟩ := round_run life now
    · rw [hloop.running] at hstopped
      cases hstopped
    · rw [hstays] at hbreaks
      cases hbreaks
    · rw [hrun]
      refine ih ⟨hloop.looping, hloop.running⟩ ?_
      simp only [hopen]
      exact (Bool.or_eq_false_iff.mp hopen).2

end Rounds

/-- A silent server is left for a new attempt exactly where the handshake was completed,
from any state of the loop and in every run. -/
theorem silent_server_left_iff :
    (∀ (life : Life P) now, life.InLoop → life.SilentAt now →
      ((life.round now).client.connected = false ∧ (life.round now).phase = .idle ↔
        life.client.handshakeDone = true ∨ life.client.session.isEstablished = true)) ∧
    ∀ config (draw : SessionDraw P) (events : List (LifeEvent P)),
      Meets lifeStep Reconnects events (.new config draw) ↔
        Meets lifeStep HandshakeOver events (.new config draw) := by
  refine ⟨fun life now hloop hsilent => round_left_iff hloop hsilent, ?_⟩
  intro config draw events
  simp only [meets_iff_split, reconnects_iff]

namespace Transparent

def waiting : Life primitives := run lifeStep [.attempt (draw 7) true] (.new clientConfig (draw 7))

/-- However many turns follow, at whatever times, the client stays in the loop. -/
theorem lost_reset_hangs :
    waiting.InLoop ∧ waiting.SilentAt 1000 ∧ ¬ Reconnects waiting (.round 1000) ∧
      ∀ turns : List Time, (run lifeStep (turns.map .round) waiting).InLoop := by
  have hloop : waiting.InLoop := ⟨by decide +kernel, by decide +kernel⟩
  have hopen : (waiting.client.handshakeDone || waiting.client.session.isEstablished) = false := by
    decide +kernel
  have hsilent : waiting.SilentAt 1000 := by
    unfold Life.SilentAt
    decide +kernel
  refine ⟨hloop, hsilent, ?_, unanswered_turns hloop hopen⟩
  rw [reconnects_iff]
  intro hover
  have hdone := hover hloop hsilent
  rw [← Bool.or_eq_true_iff, hopen] at hdone
  cases hdone

end Transparent
end PyVpn
