import PyVpn.Delivery

/-! The receiving channel against abstract reassembly, one arrival at a time. -/
namespace PyVpn
open EventRun Reassembly
section
variable {P : Primitives} {c : Cipher} {shared : SharedId} {calls : List Call}
  {ch : DataChannel} {s : State Nat Nat} {k i : Nat} {call : Call}
  {wires : Nat → Nat → Option Bytes}

/-- The replay window stands for the accepted numbers, the fragment table for the
parts held of every call that is sent in fragments. -/
structure Refines (c : Cipher) (shared : SharedId) (calls : List Call) (ch : DataChannel)
    (s : State Nat Nat) : Prop where
  cipher : ch.cipher = some c
  ids : ch.sharedId = shared
  window : ∃ accepted, ch.replay.Tracks accepted ∧ ∀ n : Nat, (n : Int) ∈ accepted ↔ n ∈ s.accepted
  whole : ∀ k call, calls[k]? = some call → call.plaintext.length ≤ maxPayload → s.held k = ∅
  groups : ∀ k call, calls[k]? = some call → ¬ call.plaintext.length ≤ maxPayload →
    GroupHeld call.plaintext (startOf calls k) (ch.fragments.lookup (startOf calls k + 1 : Int))
      (s.held k)
  sound : Sound (layout calls) s

/-- What an arrival is to abstract reassembly: a refused wire is nothing, a cleanup
drops the groups that are not in the table afterwards. -/
def abstractArrival (P : Primitives) (calls : List Call) (wires : Nat → Nat → Option Bytes)
    (ch : DataChannel) : Arrival → Event Nat Nat
  | .deliver k i _ =>
    match wires k i with
    | none => .evict fun _ => false
    | some wire => if passes P wire ch then .arrive k (wireCounter wire) else .evict fun _ => false
  | .cleanup now =>
    .evict fun k => decide ((startOf calls k + 1 : Int) ∉ (cleanupFragments now ch).fragments)

theorem refines_start (P : Primitives) (idR : SessionId) (peer : Bytes) (compLzo : Bool)
    (window : WindowSize) :
    Refines c (deriveSessionId idR peer) calls (.new P idR peer (some c) compLzo window)
      Reassembly.empty where
  cipher := rfl
  ids := rfl
  window := ⟨[], ReplayWindow.tracks_new window, fun n => by simp [Reassembly.empty]⟩
  whole := fun _ _ _ _ => rfl
  groups := fun _ _ _ _ => rfl
  sound := sound_empty

theorem evict_nothing (L : Layout Nat Nat) (s : State Nat Nat) :
    act L (.evict fun _ => false) s = (none, s) := by
  simp [act]

theorem Refines.cleanup (h : Refines c shared calls ch s) (now : Time) :
    Refines c shared calls (cleanupFragments now ch)
      (step (layout calls) s (abstractArrival P calls wires ch (.cleanup now))) where
  cipher := h.cipher
  ids := h.ids
  window := h.window
  whole := by
    intro k call hcall hwhole
    simp only [step, act, abstractArrival, h.whole k call hcall hwhole, ite_self]
  groups := by
    intro k call hcall hlong
    have hgroup := h.groups k call hcall hlong
    simp only [step, act, abstractArrival, decide_eq_true_eq]
    by_cases hgone : (startOf calls k + 1 : Int) ∉ (cleanupFragments now ch).fragments
    · rw [if_pos hgone, AList.lookup_eq_none.mpr hgone]
      rfl
    · rw [if_neg hgone]
      cases lookup_cleanup now ch (startOf calls k + 1) with
      | inl hnone => exact absurd (AList.lookup_eq_none.mp hnone) hgone
      | inr hsame => rwa [hsame]
  sound := sound_step h.sound _

/-- Every wire on the way is one of the calls' wires, under that call's counter. -/
def Carries (P : Primitives) (c : Cipher) (shared : SharedId) (calls : List Call)
    (sender : DataChannel) (wires : Nat → Nat → Option Bytes) : Prop :=
  ∀ k i wire, wires k i = some wire → ∃ call, calls[k]? = some call ∧
    i < wireCount call.plaintext ∧ startOf calls k + 1 + i < 256 ^ 4 ∧
    wire = sealWire P c shared (call.nonces i) (startOf calls k + 1 + i)
      (compressInner P sender (pieceAt call.plaintext i))

theorem part_mem (hcall : calls[k]? = some call) (hi : i < wireCount call.plaintext) :
    startOf calls k + 1 + i ∈ (layout calls).parts k := by
  rw [parts_eq hcall, Finset.mem_Ioc]
  omega

theorem Refines.arrive_whole (h : Refines c shared calls ch s) (hcall : calls[k]? = some call)
    (hwhole : call.plaintext.length ≤ maxPayload)
    (hn : startOf calls k + 1 ∉ s.accepted) :
    (act (layout calls) (.arrive k (startOf calls k + 1)) s).1 = some k ∧
      (step (layout calls) s (.arrive k (startOf calls k + 1))).held = s.held := by
  have hcount : wireCount call.plaintext = 1 := if_pos hwhole
  have hparts : (layout calls).parts k = {startOf calls k + 1} := by
    rw [parts_eq hcall, hcount]
    ext n
    simp only [Finset.mem_Ioc, Finset.mem_singleton]
    omega
  have hheld := h.whole k call hcall hwhole
  have hin : startOf calls k + 1 ∈ (layout calls).parts k ∧ startOf calls k + 1 ∉ s.accepted := by
    rw [hparts]
    exact ⟨Finset.mem_singleton_self _, hn⟩
  have hfull : insert (startOf calls k + 1) (s.held k) = (layout calls).parts k := by
    rw [hheld, hparts]
    rfl
  constructor
  · simp only [act, if_pos hin, if_pos hfull]
  · simp only [step, act, if_pos hin, if_pos hfull]
    rw [← hheld, Function.update_eq_self]

theorem Refines.accept (h : Refines c shared calls ch s) {n : Nat}
    (hfresh : (ch.replay.check n).1 = true) :
    n ∉ s.accepted ∧ ∃ accepted, (ch.replay.check n).2.Tracks accepted ∧
      ∀ m : Nat, (m : Int) ∈ accepted ↔ m ∈ insert n s.accepted := by
  obtain ⟨accepted, htracks, hmem⟩ := h.window
  have hadmits := (ReplayWindow.check_admits htracks n).mp hfresh
  have htracks' := ReplayWindow.check_tracks htracks n
  rw [AntiReplay.record_of_admits hadmits] at htracks'
  refine ⟨fun hn => hadmits.2.1 ((hmem n).mpr hn), _, htracks', ?_⟩
  intro m
  rw [List.mem_cons, Finset.mem_insert, hmem m, Nat.cast_inj]

theorem Refines.deliver_whole (hlz4 : P.hasLz4 = true)
    (hround : ∀ b, P.lz4Decompress (P.lz4Compress b) = .ok b)
    (h : Refines c shared calls ch s) (sender : DataChannel) (hcall : calls[k]? = some call)
    (hwhole : call.plaintext.length ≤ maxPayload) (hhead : Unmarked call.plaintext)
    (hfresh : (ch.replay.check (startOf calls k + 1 : Nat)).1 = true) (now : Time) :
    let ch' := { ch with replay := (ch.replay.check (startOf calls k + 1 : Nat)).2 }
    let e := Event.arrive k (startOf calls k + 1)
    (deliver P now (startOf calls k + 1) (compressInner P sender call.plaintext) ch').1 =
        .ok ((act (layout calls) e s).1.map fun _ => call.plaintext) ∧
      Refines c shared calls
        (deliver P now (startOf calls k + 1) (compressInner P sender call.plaintext) ch').2
        (step (layout calls) s e) := by
  intro ch' e
  obtain ⟨hn, accepted, htracks, hmem⟩ := h.accept hfresh
  obtain ⟨hreturns, hheld⟩ := h.arrive_whole hcall hwhole hn
  have hin : startOf calls k + 1 ∈ (layout calls).parts k :=
    part_mem (i := 0) hcall (wireCount_pos call.plaintext)
  have haccepted : (step (layout calls) s e).accepted =
      insert (startOf calls k + 1) s.accepted := by
    simp only [e, step, act, if_pos (And.intro hin hn)]
    split
    · rfl
    · rfl
  rw [PyVpn.deliver_whole hround now _ sender (fun _ => hlz4) hwhole hhead, hreturns]
  refine ⟨rfl, h.cipher, h.ids, ⟨accepted, htracks, ?_⟩, ?_, ?_, sound_step h.sound e⟩
  · rw [haccepted]
    exact hmem
  · rw [hheld]
    exact h.whole
  · rw [hheld]
    exact h.groups

/-- A fragment of one group leaves the other groups as they are, since no two calls start
at one counter. -/
theorem Refines.update_group (h : Refines c shared calls ch s) (hcall : calls[k]? = some call)
    (hlong : ¬ call.plaintext.length ≤ maxPayload) {table : Dict Int FragmentBuffer}
    {replay : ReplayWindow} {accepted group : Finset Nat}
    (hwindow : ∃ counters, replay.Tracks counters ∧
      ∀ m : Nat, (m : Int) ∈ counters ↔ m ∈ accepted)
    (hother : ∀ groupId : Int, groupId ≠ startOf calls k + 1 →
      table.lookup groupId = ch.fragments.lookup groupId)
    (hgroup : GroupHeld call.plaintext (startOf calls k)
      (table.lookup (startOf calls k + 1 : Int)) group)
    (hsound : Sound (layout calls) ⟨accepted, Function.update s.held k group⟩) :
    Refines c shared calls { ch with fragments := table, replay := replay }
      ⟨accepted, Function.update s.held k group⟩ where
  cipher := h.cipher
  ids := h.ids
  window := hwindow
  whole := by
    intro j call' hj hwhole
    by_cases hjk : j = k
    · subst hjk
      rw [hcall] at hj
      cases hj
      exact absurd hwhole hlong
    · exact (Function.update_of_ne hjk ..).trans (h.whole j call' hj hwhole)
  groups := by
    intro j call' hj hlong'
    by_cases hjk : j = k
    · subst hjk
      rw [hcall] at hj
      cases hj
      simp only [Function.update_self]
      exact hgroup
    · have hne : (startOf calls j + 1 : Int) ≠ startOf calls k + 1 := by
        intro heq
        exact hjk (startOf_inj hj hcall (by omega))
      simp only [Function.update_of_ne hjk, hother _ hne]
      exact h.groups j call' hj hlong'
  sound := hsound

/-- A fresh fragment: both sides return the plaintext with the last one and otherwise
add the fragment to what they hold. -/
theorem Refines.deliver_fragment (hlz4 : P.hasLz4 = true)
    (hround : ∀ b, P.lz4Decompress (P.lz4Compress b) = .ok b)
    (h : Refines c shared calls ch s) (sender : DataChannel) (hcall : calls[k]? = some call)
    (hlong : ¬ call.plaintext.length ≤ maxPayload) (hcount : wireCount call.plaintext ≤ 255)
    (hi : i < wireCount call.plaintext)
    (hfresh : (ch.replay.check (startOf calls k + 1 + i : Nat)).1 = true) (now : Time) :
    let ch' := { ch with replay := (ch.replay.check (startOf calls k + 1 + i : Nat)).2 }
    let e := Event.arrive k (startOf calls k + 1 + i)
    let inner := compressInner P sender (pieceAt call.plaintext i)
    (deliver P now (startOf calls k + 1 + i) inner ch').1 =
        .ok ((act (layout calls) e s).1.map fun _ => call.plaintext) ∧
      Refines c shared calls (deliver P now (startOf calls k + 1 + i) inner ch').2
        (step (layout calls) s e) := by
  intro ch' e inner
  obtain ⟨hn, accepted, htracks, hmem⟩ := h.accept hfresh
  have htotal : wireCount call.plaintext = fragmentTotal call.plaintext := if_neg hlong
  have hin := part_mem hcall hi
  have hgroup : GroupHeld call.plaintext (startOf calls k)
    (ch'.fragments.lookup (startOf calls k + 1 : Int)) (s.held k) := h.groups k call hcall hlong
  have hparts := parts_eq hcall
  rw [htotal] at hcount hi hparts
  have hheld : insert (startOf calls k + 1 + i) (s.held k) ⊆
      Finset.Ioc (startOf calls k) (startOf calls k + fragmentTotal call.plaintext) := by
    rw [← hparts]
    exact Finset.insert_subset hin (h.sound k).2
  obtain ⟨buf, hbuf, hrun⟩ := reassemble_fragment hlong hcount hgroup hi hheld now
  rw [PyVpn.deliver_fragment hround now _ sender (fun _ => hlz4) hlong i, hrun, ← hparts]
  by_cases hfull : insert (startOf calls k + 1 + i) (s.held k) = (layout calls).parts k
  · have hact : act (layout calls) e s = (some k, ⟨insert (startOf calls k + 1 + i) s.accepted,
        Function.update s.held k ∅⟩) := by
      simp only [e, act, if_pos (And.intro hin hn), if_pos hfull]
    have hsound := sound_step h.sound e
    simp only [step, hact] at hsound ⊢
    rw [if_pos hfull]
    refine ⟨rfl, h.update_group hcall hlong ⟨accepted, htracks, hmem⟩ ?_ ?_ hsound⟩
    · intro groupId hne
      rw [AList.lookup_erase_ne hne, AList.lookup_insert_ne hne]
    · rw [AList.lookup_erase]
      rfl
  · have hact : act (layout calls) e s = (none, ⟨insert (startOf calls k + 1 + i) s.accepted,
        Function.update s.held k (insert (startOf calls k + 1 + i) (s.held k))⟩) := by
      simp only [e, act, if_pos (And.intro hin hn), if_neg hfull]
    have hsound := sound_step h.sound e
    simp only [step, hact] at hsound ⊢
    rw [if_neg hfull]
    refine ⟨rfl, h.update_group hcall hlong ⟨accepted, htracks, hmem⟩ ?_ ?_ hsound⟩
    · exact fun groupId hne => AList.lookup_insert_ne hne
    · rw [AList.lookup_insert]
      exact hbuf

/-- What one arrival returns: nothing, or the plaintext of the call whose wire arrived. -/
def Matches (calls : List Call) (r : Arrival × Except PyError (Option Bytes)) (r' : Option Nat) :
    Prop :=
  match r' with
  | none => r.2 = .ok none
  | some k => ∃ i now call, r.1 = .deliver k i now ∧ calls[k]? = some call ∧
      r.2 = .ok (some call.plaintext)

/-- One arrival and its abstract counterpart: related states, matching returns. -/
theorem Refines.next (ideal : IdealAead P) (hlz4 : P.hasLz4 = true)
    (hround : ∀ b, P.lz4Decompress (P.lz4Compress b) = .ok b)
    (hcalls : ∀ call ∈ calls, wireCount call.plaintext ≤ 255 ∧ Unmarked call.plaintext)
    {sender : DataChannel} (hwires : Carries P c shared calls sender wires)
    (h : Refines c shared calls ch s) (e : Arrival) :
    Refines c shared calls (receiveNext P wires e ch).2
        (act (layout calls) (abstractArrival P calls wires ch e) s).2 ∧
      Matches calls (e, (receiveNext P wires e ch).1)
        (act (layout calls) (abstractArrival P calls wires ch e) s).1 := by
  cases e with
  | cleanup now => exact ⟨h.cleanup now, rfl⟩
  | deliver k i now =>
    cases hwire : wires k i with
    | none =>
      simp only [receiveNext, abstractArrival, hwire, evict_nothing]
      exact ⟨h, rfl⟩
    | some wire =>
      obtain ⟨call, hcall, hi, hcounter, rfl⟩ := hwires k i wire hwire
      have hids := h.ids
      subst hids
      have hauth := authenticate_sealWire ideal h.cipher (call.nonces i) hcounter
        (compressInner_ne_nil P sender (pieceAt call.plaintext i))
      have hpass := passes_sealed ideal h.cipher ⟨call.nonces i, startOf calls k + 1 + i, _,
        hcounter, compressInner_ne_nil P sender (pieceAt call.plaintext i), rfl⟩
      rw [wireCounter_sealWire c ch.sharedId (call.nonces i) hcounter] at hpass
      cases hfresh : (ch.replay.check (startOf calls k + 1 + i : Nat)).1 with
      | false =>
        rw [hfresh] at hauth hpass
        rw [ReplayWindow.check_unchanged hfresh] at hauth
        simp only [receiveNext, abstractArrival, hwire, decrypt_run, hauth, hpass,
          Bool.false_eq_true, if_false, evict_nothing]
        exact ⟨h, rfl⟩
      | true =>
        rw [hfresh] at hauth hpass
        obtain ⟨hcount, hhead⟩ := hcalls call (List.mem_of_getElem? hcall)
        have hdeliver : (deliver P now (startOf calls k + 1 + i)
            (compressInner P sender (pieceAt call.plaintext i))
            { ch with replay := (ch.replay.check (startOf calls k + 1 + i : Nat)).2 }).1 =
            .ok ((act (layout calls) (.arrive k (startOf calls k + 1 + i)) s).1.map
              fun _ => call.plaintext) ∧
            Refines c ch.sharedId calls (deliver P now (startOf calls k + 1 + i)
              (compressInner P sender (pieceAt call.plaintext i))
              { ch with replay := (ch.replay.check (startOf calls k + 1 + i : Nat)).2 }).2
              (step (layout calls) s (.arrive k (startOf calls k + 1 + i))) := by
          by_cases hwhole : call.plaintext.length ≤ maxPayload
          · have hzero : i = 0 := by
              rw [wireCount, if_pos hwhole] at hi
              omega
            subst hzero
            rw [pieceAt, if_pos hwhole]
            exact h.deliver_whole hlz4 hround sender hcall hwhole hhead hfresh now
          · exact h.deliver_fragment hlz4 hround sender hcall hwhole hcount hi hfresh now
        simp only [receiveNext, abstractArrival, hwire, decrypt_run, hauth, hpass, if_true,
          wireCounter_sealWire c ch.sharedId (call.nonces i) hcounter]
        refine ⟨hdeliver.2, ?_⟩
        rw [hdeliver.1]
        cases arrive_delivers (layout calls) s k (startOf calls k + 1 + i) with
        | inl hnone =>
          rw [hnone]
          rfl
        | inr hsome =>
          rw [hsome]
          exact ⟨i, now, call, rfl, hcall, rfl⟩

end
end PyVpn
