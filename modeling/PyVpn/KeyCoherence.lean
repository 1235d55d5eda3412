import PyVpn.SessionRun
import PyVpn.Transparent

/-! The session key of an established session belongs to the current ephemeral key
and session id of the peer: always on the client, on the server as long as no
handler runs in a state it should refuse. -/
namespace PyVpn
open EventRun
variable {P : Primitives}

/-- The cipher is the one derived from the values the session holds now. -/
def KeyCoherent (s : Session P) : Prop :=
  ∃ pub cipher, s.peerPubEph = some pub ∧ s.cipher = some cipher ∧
    deriveCipher s.privateEph pub (handshakeSalt s) = .ok cipher

def ServerCall.IsReset : ServerCall → Prop
  | .reset _ raw => ∃ sid payload, decodePacket raw = .ok (.hardResetClient, sid, payload)
  | _ => False

/-- Whenever a call left the session in `ERROR`, a `HARD_RESET_CLIENT` came later. -/
def NoErrorSinceReset (s₀ : Session P) (calls : List ServerCall) : Prop :=
  ∀ before after, calls = before ++ after → (run serverCall before s₀).state = .error →
    ∃ c ∈ after, c.IsReset

/-- No handler runs in a state it should refuse: no good hello in `ERROR`, no good
`CLIENT_FINISHED` before a hello was answered. -/
def InOrder (s : Session P) : ServerCall → Prop
  | .reset _ _ => True
  | .clientHello _ payload => s.state ≠ .error ∨
      ∀ certData pubData offset cert cipher,
        ¬ HelloKeyed s payload certData pubData offset cert cipher
  | .clientFinished payload =>
      s.state = .helloSent ∨ s.state = .established ∨ FinishedRefused s payload

def FinishedInTurn (s : Session P) : ServerCall → Prop
  | .clientFinished payload =>
      s.state = .helloSent ∨ s.state = .established ∨ FinishedRefused s payload
  | _ => True

theorem InOrder.inTurn {s : Session P} {c : ServerCall} (h : InOrder s c) :
    FinishedInTurn s c := by
  cases c with
  | reset now raw => trivial
  | clientHello coins payload => trivial
  | clientFinished payload => exact h

/-- The rule for what an answered hello brings about: in turn, it is there from then on. -/
theorem ServerOutcome.answered {I : Session P → Prop} {s t : Session P} {c : ServerCall}
    (h : ServerOutcome s c t)
    (hanswered : ∀ payload certData pubData offset cert cipher signed,
      HelloKeyed s payload certData pubData offset cert cipher →
        I { s with
          peerPubEph := some pubData, peerCert := cert, cipher := some cipher, state := .helloSent
          signed := signed })
    (hfinished : I s → I { s with state := .established })
    (ih : s.state = .helloSent ∨ s.state = .established → I s)
    (hok : FinishedInTurn s c) (hstate : t.state = .helloSent ∨ t.state = .established) : I t := by
  cases h with
  | resetIgnored => exact ih hstate
  | reset => simp at hstate
  | helloFailed => simp at hstate
  | helloAnswered _ _ _ _ _ _ _ hkeyed => exact hanswered _ _ _ _ _ _ _ hkeyed
  | finishedRefused => simp at hstate
  | finished _ sig hsig hpass =>
    obtain hsent | hest | hrefused := hok
    · exact hfinished (ih (.inl hsent))
    · exact hfinished (ih (.inr hest))
    · cases hpass.symm.trans (hrefused sig hsig)

/-- Once a hello was answered the key is coherent. -/
theorem ServerOutcome.coherent {s t : Session P} {c : ServerCall} (h : ServerOutcome s c t)
    (ih : s.state = .helloSent ∨ s.state = .established → KeyCoherent s)
    (hok : FinishedInTurn s c) (hstate : t.state = .helloSent ∨ t.state = .established) :
    KeyCoherent t :=
  h.answered (fun _ _ pubData _ _ cipher _ hkeyed => ⟨pubData, cipher, rfl, rfl, hkeyed.derived⟩)
    id ih hok hstate

theorem noErrorSinceReset_concat {s₀ : Session P} {calls : List ServerCall} {c : ServerCall}
    (hstate : (run serverCall (calls ++ [c]) s₀).state ≠ .error)
    (h : NoErrorSinceReset s₀ calls ∨ c.IsReset) : NoErrorSinceReset s₀ (calls ++ [c]) := by
  intro before after hsplit herr
  obtain rfl | ⟨after, d, rfl⟩ := List.eq_nil_or_concat after
  · rw [List.append_nil] at hsplit
    exact absurd herr (hsplit ▸ hstate)
  · rw [List.concat_eq_append, ← List.append_assoc] at hsplit
    obtain ⟨hcalls, hd⟩ := List.append_inj' hsplit rfl
    obtain h | h := h
    · obtain ⟨r, hr, hreset⟩ := h before after hcalls herr
      exact ⟨r, by simp [hr], hreset⟩
    · exact ⟨d, by simp, List.singleton_inj.mp hd ▸ h⟩

/-- What the guarded server run keeps: once a hello was answered the key is coherent,
and a session that is not in `ERROR` has seen none since its last reset. -/
structure ServerKeyInv (s₀ : Session P) (calls : List ServerCall) (s : Session P) : Prop where
  coherent : s.state = .helloSent ∨ s.state = .established → KeyCoherent s
  clean : s.state ≠ .error → NoErrorSinceReset s₀ calls

theorem ServerOutcome.clean {s t : Session P} {c : ServerCall} (h : ServerOutcome s c t)
    (hok : InOrder s c) (hne : t.state ≠ .error) : s.state ≠ .error ∨ c.IsReset := by
  cases h with
  | resetIgnored => exact .inl hne
  | reset _ _ sid payload hdecode => exact .inr ⟨sid, payload, hdecode⟩
  | helloFailed => exact absurd rfl hne
  | helloAnswered _ _ certData pubData offset cert cipher hkeyed =>
    exact .inl (hok.resolve_right fun hbad => hbad certData pubData offset cert cipher hkeyed)
  | finishedRefused => exact absurd rfl hne
  | finished _ sig hsig hpass =>
    left
    obtain hsent | hest | hrefused := hok
    · simp [hsent]
    · simp [hest]
    · cases hpass.symm.trans (hrefused sig hsig)

theorem serverKeyInv_step {s₀ : Session P} (calls : List ServerCall) (c : ServerCall)
    (ih : ServerKeyInv s₀ calls (run serverCall calls s₀))
    (hok : InOrder (run serverCall calls s₀) c) :
    ServerKeyInv s₀ (calls ++ [c]) (serverCall (run serverCall calls s₀) c) := by
  have houtcome := serverCall_outcome (run serverCall calls s₀) c
  refine ⟨houtcome.coherent ih.coherent hok.inTurn, ?_⟩
  intro hne
  have hstate : (run serverCall (calls ++ [c]) s₀).state ≠ .error := by rwa [run_concat]
  exact noErrorSinceReset_concat hstate ((houtcome.clean hok hne).imp_left ih.clean)

theorem serverKeyInv_run {s₀ : Session P} (h₀ : Prepared true s₀) (calls : List ServerCall)
    (hok : Meets serverCall InOrder calls s₀) :
    ServerKeyInv s₀ calls (run serverCall calls s₀) := by
  refine history_run (I := ServerKeyInv s₀) ⟨?_, ?_⟩ serverKeyInv_step calls hok
  · simp [h₀.idle]
  · intro _ before after hsplit herr
    obtain ⟨rfl, rfl⟩ := List.append_eq_nil_iff.mp hsplit.symm
    exact absurd herr (by simp [h₀.idle])

theorem ClientOutcome.coherent {s t : Session P} {c : ClientCall} (h : ClientOutcome s c t)
    (ih : s.state = .established → KeyCoherent s) (hest : t.state = .established) :
    KeyCoherent t := by
  cases h with
  | start => cases hest
  | ackIgnored => exact ih hest
  | ack => cases hest
  | helloFailed => cases hest
  | helloAccepted _ _ _ pubData _ _ _ _ _ cipher hkeyed =>
    exact ⟨pubData, cipher, rfl, rfl, hkeyed.derived⟩

theorem clientKey_run {s₀ : Session P} (h₀ : Prepared false s₀) (calls : List ClientCall)
    (hest : (run clientCall calls s₀).state = .established) :
    KeyCoherent (run clientCall calls s₀) := by
  refine inv_run_always (I := fun s => s.state = .established → KeyCoherent s)
    (fun s c ih => (clientCall_outcome s c).coherent ih) calls s₀ ?_ hest
  simp [h₀.idle]

/-- Session key coherence: for every client run, and for every server run whose calls
come in order, with no `ERROR` left behind on the server. -/
theorem session_key_coherent :
    (∀ (s₀ : Session P), Prepared false s₀ → ∀ calls : List ClientCall,
      (run clientCall calls s₀).state = .established → KeyCoherent (run clientCall calls s₀)) ∧
    (∀ (s₀ : Session P), Prepared true s₀ → ∀ calls : List ServerCall,
      Meets serverCall InOrder calls s₀ → (run serverCall calls s₀).state = .established →
        KeyCoherent (run serverCall calls s₀) ∧ NoErrorSinceReset s₀ calls) := by
  refine ⟨fun s₀ h₀ calls hest => clientKey_run h₀ calls hest, fun s₀ h₀ calls hok hest => ?_⟩
  have hinv := serverKeyInv_run h₀ calls hok
  exact ⟨hinv.coherent (.inr hest), hinv.clean (by simp [hest])⟩

/-- A reset and a `CLIENT_FINISHED` establish a dev-mode server that has no key at all. -/
theorem server_established_without_key :
    let s := run serverCall [.reset 0 (Transparent.resetPacket 9), .clientFinished [0, 0]]
      Transparent.devServer
    s.state = .established ∧ ¬ KeyCoherent s := by
  intro s
  refine ⟨by decide, ?_⟩
  intro hcoherent
  obtain ⟨pub, cipher, -, hcipher, -⟩ := hcoherent
  have hnone : s.cipher = none := rfl
  exact absurd (hnone.symm.trans hcipher) (by simp)

def devServerCalls : List ServerCall :=
  [.reset 0 (Transparent.resetPacket 9), .clientHello [] (Transparent.hello [] 7),
    .clientFinished [0, 0]]

def devClientCalls : List ClientCall :=
  [.start, .resetAck (Transparent.resetAckPacket 5),
    .serverHello [] (Transparent.hello [] 5 ++ [0, 0])]

/-- Both ends of one dev-mode handshake. -/
theorem session_key_coherent_handshake :
    KeyCoherent (run clientCall devClientCalls Transparent.devClient) ∧
    KeyCoherent (run serverCall devServerCalls Transparent.devServer) ∧
    NoErrorSinceReset Transparent.devServer devServerCalls :=
  ⟨session_key_coherent.1 Transparent.devClient ⟨_, .inl rfl⟩ _ (by decide),
    session_key_coherent.2 Transparent.devServer ⟨_, .inl rfl⟩ _
      ⟨trivial, .inl (by decide), .inl (by decide), trivial⟩ (by decide)⟩

end PyVpn
