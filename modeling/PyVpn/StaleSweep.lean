import PyVpn.Survival

/-! What a sweep of the client table leaves. `is_expired` spares a session in `IDLE`, so
an entry whose first reset was malformed, or whose connection never sent anything, is
never collected. -/
namespace PyVpn
open EventRun
variable {P : Primitives}

/-- A client silent for longer than the timeout, or a handshake that took too long. -/
def ClientSession.Due (cs : ClientSession P) (now : Time) (timeout : Int) : Prop :=
  (cs.session.isEstablished = true ∧ now - cs.lastSeen > timeout) ∨
    (cs.session.isEstablished = false ∧ now - cs.session.createdAt > handshakeTimeout)

theorem isStale_iff {cs : ClientSession P} {now : Time} {timeout : Int} :
    cs.isStale now timeout = true ↔ cs.Due now timeout ∧ cs.session.state ≠ .idle := by
  unfold ClientSession.isStale ClientSession.Due
  cases hest : cs.session.isEstablished with
  | true =>
    have hstate : cs.session.state ≠ .idle := by
      rw [isEstablished_iff.mp hest]
      decide
    simp [hstate]
  | false =>
    have hstate : cs.session.state ≠ .established := by
      intro heq
      rw [isEstablished_iff.mpr heq] at hest
      cases hest
    simp [Session.isExpired, hstate, and_comm]

/-- What a sweep should leave: no due entry, and every other one. -/
structure Swept (now : Time) (server swept : VpnServer P) : Prop where
  collected : ∀ addr cs, swept.clients.lookup addr = some cs →
    ¬ cs.Due now server.config.keepaliveTimeout
  kept : ∀ addr cs, server.clients.lookup addr = some cs →
    ¬ cs.Due now server.config.keepaliveTimeout → swept.clients.lookup addr = some cs

/-- A sweep leaves the entries that are not due and nothing else exactly when no entry
has been in `IDLE` for longer than a handshake may take. -/
theorem sweep_exact_iff (self : VpnServer P) (now : Time) :
    Swept now self (cleanupStale now self) ↔
      ∀ addr cs, self.clients.lookup addr = some cs → cs.session.state = .idle →
        now - cs.session.createdAt ≤ handshakeTimeout := by
  constructor
  · intro h addr cs hcs hidle
    have hnot : ¬ cs.isStale now self.config.keepaliveTimeout = true :=
      fun hstale => (isStale_iff.mp hstale).2 hidle
    have hleft : (cleanupStale now self).clients.lookup addr = some cs := by
      rw [cleanupStale_lookup, hcs]
      simpa using hnot
    have hest : cs.session.isEstablished = false := by
      rw [Session.isEstablished, hidle]
      rfl
    by_contra hlong
    exact h.collected addr cs hleft (.inr ⟨hest, lt_of_not_ge hlong⟩)
  · intro h
    constructor
    · intro addr cs hleft hdue
      rw [cleanupStale_lookup] at hleft
      obtain ⟨hcs, hfresh⟩ := Option.filter_eq_some_iff.mp hleft
      have hidle : cs.session.state = .idle := by
        by_contra hother
        rw [isStale_iff.mpr ⟨hdue, hother⟩] at hfresh
        cases hfresh
      obtain ⟨hest, -⟩ | ⟨-, hlong⟩ := hdue
      · rw [Session.isEstablished, hidle] at hest
        cases hest
      · exact absurd (h addr cs hcs hidle) (not_le.mpr hlong)
    · intro addr cs hcs hdue
      have hfresh : ¬ cs.isStale now self.config.keepaliveTimeout = true :=
        fun hstale => hdue (isStale_iff.mp hstale).1
      rw [cleanupStale_lookup, hcs]
      simpa using hfresh

namespace Transparent

def cutReset : ServerEvent primitives := .datagram ⟨draw 5, []⟩ [Opcode.hardResetClient.value] peer

/-- The entry a cut-off reset makes survives every sweep. -/
theorem cut_reset_never_collected :
    ServerReachable (serverStep started cutReset) ∧
    ¬ Swept 1000 (serverStep started cutReset)
      (cleanupStale 1000 (serverStep started cutReset)) := by
  refine ⟨started_reachable.step cutReset, ?_⟩
  intro h
  have hany : ((cleanupStale 1000 (serverStep started cutReset)).clients.lookup peer).any
      (fun cs => !cs.session.isEstablished &&
        decide ((1000 : Time) - cs.session.createdAt > handshakeTimeout)) = true := by
    decide +kernel
  obtain ⟨cs, hcs, hdue⟩ := (Option.any_eq_true _ _).mp hany
  obtain ⟨hest, hlong⟩ := Bool.and_eq_true_iff.mp hdue
  exact h.collected peer cs hcs (.inr ⟨by simpa using hest, of_decide_eq_true hlong⟩)

end Transparent
end PyVpn
