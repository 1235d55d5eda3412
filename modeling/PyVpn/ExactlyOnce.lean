import PyVpn.DeliverySim

/-! Reassembly never corrupts, mixes or repeats packets: the laws of abstract
reassembly, read off the receiving channel. -/
namespace PyVpn
open EventRun Reassembly
section
variable {P : Primitives} {c : Cipher} {shared : SharedId} {calls : List Call}
  {sender ch : DataChannel} {s : State Nat Nat} {wires : Nat → Nat → Option Bytes} {k : Nat}

def returnsFor (k : Nat) (r : Arrival × Except PyError (Option Bytes)) : Bool :=
  match r with
  | (.deliver j _ _, .ok (some _)) => decide (j = k)
  | _ => false

theorem returnsFor_of_matches {r : Arrival × Except PyError (Option Bytes)} {r' : Option Nat}
    (h : Matches calls r r') : returnsFor k r = decide (r' = some k) := by
  obtain ⟨e, result⟩ := r
  cases r' with
  | none =>
    have hnone : result = .ok none := h
    subst hnone
    cases e with
    | deliver j i now => rfl
    | cleanup now => rfl
  | some j =>
    obtain ⟨i, now, call, rfl, _, hresult⟩ := h
    have hsome : result = .ok (some call.plaintext) := hresult
    subst hsome
    simp [returnsFor]

theorem matches_of_mem {rs : List (Arrival × Except PyError (Option Bytes))}
    {rs' : List (Event Nat Nat × Option Nat)}
    (h : List.Forall₂ (fun r r' => Matches calls r r'.2) rs rs')
    {r : Arrival × Except PyError (Option Bytes)} (hr : r ∈ rs) : ∃ r', Matches calls r r' := by
  induction h with
  | nil => cases hr
  | cons hhead _ ih =>
    cases List.mem_cons.mp hr with
    | inl heq => exact ⟨_, heq ▸ hhead⟩
    | inr hmem => exact ih hmem

theorem countP_matches {rs : List (Arrival × Except PyError (Option Bytes))}
    {rs' : List (Event Nat Nat × Option Nat)}
    (h : List.Forall₂ (fun r r' => Matches calls r r'.2) rs rs') :
    rs.countP (returnsFor k) = rs'.countP (fun r => r.2 = some k) := by
  induction h with
  | nil => rfl
  | cons hr _ ih => rw [List.countP_cons, List.countP_cons, ih, returnsFor_of_matches hr]

theorem wireCount_le {plaintext : Bytes} (h : plaintext.length ≤ 255 * maxPayload) :
    wireCount plaintext ≤ 255 := by
  unfold wireCount fragmentTotal maxPayload at *
  split
  · decide
  · omega

theorem carries_sent (hc : sender.cipher = some c) (hzero : sender.packetCounter = 0)
    (hcalls : ∀ call ∈ calls, call.plaintext.length ≤ 255 * maxPayload)
    (hcount : startOf calls calls.length < 256 ^ 4) :
    Carries P c sender.sharedId calls sender (sentWire P calls sender) := by
  intro k i wire hwire
  rw [sentWire_eq hc (fun call h => wireCount_le (hcalls call h)) (by omega)] at hwire
  cases hcall : calls[k]? with
  | none =>
    rw [hcall] at hwire
    cases hwire
  | some call =>
    rw [hcall, Option.bind_some] at hwire
    split at hwire
    · rename_i hi
      have hlast : startOf calls (k + 1) ≤ startOf calls calls.length :=
        startOf_mono calls (List.getElem?_eq_some_iff.mp hcall).1
      rw [startOf_succ hcall] at hlast
      rw [hzero, Nat.zero_add] at hwire
      exact ⟨call, rfl, hi, by omega, (Option.some.inj hwire).symm⟩
    · cases hwire

theorem spares_of_kept (h : Refines c shared calls ch s) {call : Call}
    (hcall : calls[k]? = some call) {e : Arrival}
    (hkept : GroupKept (startOf calls k + 1 : Int) ch e) :
    Spares k s (abstractArrival P calls wires ch e) := by
  have hnothing : Spares k s (.evict fun _ => false) := fun hfalse => absurd hfalse Bool.noConfusion
  cases e with
  | deliver j i now =>
    cases hwire : wires j i with
    | none =>
      simp only [abstractArrival, hwire]
      exact hnothing
    | some wire =>
      simp only [abstractArrival, hwire]
      cases passes P wire ch with
      | false => exact hnothing
      | true => trivial
  | cleanup now =>
    intro hgone
    have habsent := mt hkept (of_decide_eq_true hgone)
    by_cases hwhole : call.plaintext.length ≤ maxPayload
    · exact h.whole k call hcall hwhole
    · have hgroup := h.groups k call hcall hwhole
      rwa [AList.lookup_eq_none.mpr habsent] at hgroup

theorem accepted_of_passes (ideal : IdealAead P) (hlz4 : P.hasLz4 = true)
    (hround : ∀ b, P.lz4Decompress (P.lz4Compress b) = .ok b)
    (hcalls : ∀ call ∈ calls, wireCount call.plaintext ≤ 255 ∧ Unmarked call.plaintext)
    (hwires : Carries P c shared calls sender wires) (h : Refines c shared calls ch s)
    (u v : List Arrival) (i : Nat) (now : Time) {wire : Bytes} (hwire : wires k i = some wire)
    (hpass : passes P wire (run (fun ch e => (receiveNext P wires e ch).2) u ch) = true) :
    startOf calls k + 1 + i ∈ (run (step (layout calls))
      (translate (receiveNext P wires) (abstractArrival P calls wires)
        (u ++ .deliver k i now :: v) ch) s).accepted := by
  have hu := simulate_run (fun _ _ e h => (h.next ideal hlz4 hround hcalls hwires e).1) u h
  obtain ⟨call, hcall, hi, hcounter, hseal⟩ := hwires k i wire hwire
  have hnumber : wireCounter wire = startOf calls k + 1 + i := by
    rw [hseal]
    exact wireCounter_sealWire c shared (call.nonces i) hcounter
  rw [translate_append, run_append, EventRun.translate, run_cons]
  apply accepted_run
  simp only [abstractArrival, hwire, hpass, if_true, hnumber]
  exact accepted_arrive (part_mem hcall hi)

/-- Every value returned is the plaintext of the call whose wire arrived, no call's
plaintext is returned twice, and one whose wires all pass the replay window while its
group is not evicted is returned exactly once. -/
theorem reassembly_exact (ideal : IdealAead P) (hlz4 : P.hasLz4 = true)
    (hround : ∀ b, P.lz4Decompress (P.lz4Compress b) = .ok b) (c : Cipher)
    (idS idR : SessionId) (lzoS lzoR : Bool) (windowS windowR : WindowSize) (calls : List Call)
    (hlen : ∀ call ∈ calls, call.plaintext.length ≤ 255 * maxPayload)
    (hhead : ∀ call ∈ calls, Unmarked call.plaintext)
    (hcount : (calls.map fun call => wireCount call.plaintext).sum < 2 ^ 32)
    (arrivals : List Arrival) :
    let sender := DataChannel.new P idS idR.val (some c) lzoS windowS
    let receiver := DataChannel.new P idR idS.val (some c) lzoR windowR
    let wires := sentWire P calls sender
    let results := outputs (receiveNext P wires) arrivals receiver
    (∀ r ∈ results, ∀ p, r.2 = .ok (some p) → ∃ k i now call,
      r.1 = .deliver k i now ∧ calls[k]? = some call ∧ p = call.plaintext) ∧
    (∀ k, results.countP (returnsFor k) ≤ 1) ∧
    ∀ k call, calls[k]? = some call →
      (∀ i < wireCount call.plaintext, ∃ u now v wire, arrivals = u ++ .deliver k i now :: v ∧
        wires k i = some wire ∧
        passes P wire (run (fun ch e => (receiveNext P wires e ch).2) u receiver) = true) →
      Meets (fun ch e => (receiveNext P wires e ch).2) (GroupKept (startOf calls k + 1 : Int))
        arrivals receiver →
      results.countP (returnsFor k) = 1 := by
  intro sender receiver wires results
  have hwires : Carries P c sender.sharedId calls sender wires :=
    carries_sent rfl rfl hlen (by simpa [startOf] using hcount)
  have hids : sender.sharedId = deriveSessionId idR idS.val := deriveSessionId_comm idS idR
  rw [hids] at hwires
  have hstart : Refines c (deriveSessionId idR idS.val) calls receiver Reassembly.empty :=
    refines_start P idR idS.val lzoR windowR
  have hcalls : ∀ call ∈ calls, wireCount call.plaintext ≤ 255 ∧ Unmarked call.plaintext :=
    fun call h => ⟨wireCount_le (hlen call h), hhead call h⟩
  have hstep (ch : DataChannel) (s : State Nat Nat) (e : Arrival)
      (h : Refines c (deriveSessionId idR idS.val) calls ch s) :=
    h.next ideal hlz4 hround hcalls hwires e
  have hmatch := simulate_outputs (fun ch s e h => (hstep ch s e h).1)
    (fun ch s e h => (hstep ch s e h).2) arrivals hstart
  refine ⟨?_, ?_, ?_⟩
  · intro r hr p hp
    obtain ⟨r', hrr'⟩ := matches_of_mem hmatch hr
    cases r' with
    | none =>
      rw [show r.2 = .ok none from hrr'] at hp
      cases hp
    | some k =>
      obtain ⟨i, now, call, hdeliver, hcall, hresult⟩ := hrr'
      rw [hresult] at hp
      cases hp
      exact ⟨k, i, now, call, hdeliver, hcall, rfl⟩
  · intro k
    rw [countP_matches hmatch]
    exact at_most_once _
  · intro k call hcall haccepted hkept
    rw [countP_matches hmatch]
    have hpart : startOf calls k + 1 ∈ (layout calls).parts k :=
      part_mem (i := 0) hcall (wireCount_pos call.plaintext)
    apply exactly_once sound_empty
    · intro n _ hn
      cases hn
    · intro hall
      cases hall hpart
    · exact simulate_meets (fun ch s e h => (hstep ch s e h).1)
        (fun ch s e h hok => spares_of_kept h hcall hok) arrivals hstart hkept
    · intro n hn
      rw [parts_eq hcall, Finset.mem_Ioc] at hn
      obtain ⟨u, now, v, wire, harrivals, hwire, hpass⟩ :=
        haccepted (n - (startOf calls k + 1)) (by omega)
      have hn' : startOf calls k + 1 + (n - (startOf calls k + 1)) = n := by omega
      have hacc := accepted_of_passes ideal hlz4 hround hcalls hwires hstart u v _ now hwire hpass
      rw [harrivals]
      rwa [hn'] at hacc

end
namespace Transparent

def longPacket (b : UInt8) : Bytes := 0x45 :: List.replicate 1400 b

def threeCalls : List Call :=
  [longPacket 1, [0x45], longPacket 2].map fun plaintext => ⟨fun _ => nonceOf 0, plaintext⟩

/-- The first packet comes last fragment first, with the short one and a cleanup in between; the
last packet loses its group to a cleanup; every wire comes again. -/
def mixedArrivals : List Arrival :=
  [.deliver 0 1 0, .deliver 2 0 1, .deliver 1 0 2, .cleanup 4, .deliver 1 0 4, .deliver 0 0 5,
    .deliver 0 1 5, .cleanup 7, .deliver 2 1 8, .deliver 2 0 8, .deliver 0 0 9]

theorem longPacket_length (b : UInt8) : (longPacket b).length = 1401 := by
  rw [longPacket, List.length_cons, List.length_replicate]

theorem threeCalls_each {Q : Call → Prop} (hlong : ∀ b, Q ⟨fun _ => nonceOf 0, longPacket b⟩)
    (hshort : Q ⟨fun _ => nonceOf 0, [0x45]⟩) : ∀ call ∈ threeCalls, Q call := by
  intro call hcall
  simp only [threeCalls, List.map_cons, List.map_nil, List.mem_cons, List.not_mem_nil,
    or_false] at hcall
  obtain rfl | rfl | rfl := hcall
  · exact hlong 1
  · exact hshort
  · exact hlong 2

/-- This wire is taken where it comes behind these arrivals. -/
def takenAfter (k i : Nat) (arrivals : List Arrival) : Bool :=
  (sentWire primitives threeCalls sender k i).any fun wire => passes primitives wire
    (run (fun ch e => (receiveNext primitives (sentWire primitives threeCalls sender) e ch).2)
      arrivals receiver)

/-- The first two packets are returned once each, the last one at most once. -/
theorem reassembly_exact_mixed :
    let results := outputs (receiveNext primitives (sentWire primitives threeCalls sender))
      mixedArrivals receiver
    results.countP (returnsFor 0) = 1 ∧ results.countP (returnsFor 1) = 1 ∧
      results.countP (returnsFor 2) ≤ 1 := by
  have hexact := reassembly_exact ideal rfl (fun _ => rfl) (cipherOf 9) (sidOf 5) (sidOf 7) false
    false ⟨64, by decide, by decide⟩ ⟨64, by decide, by decide⟩ threeCalls
    (threeCalls_each (fun b => by rw [longPacket_length]; decide) (by decide))
    (threeCalls_each (fun b _ head hhead => Option.some.inj hhead ▸ by decide)
      (fun _ head hhead => Option.some.inj hhead ▸ by decide))
    (by decide +kernel) mixedArrivals
  -- neither cleanup drops the group of the first packet
  have hkept (k : Nat) (hk : k < 2) : Meets
      (fun ch e => (receiveNext primitives (sentWire primitives threeCalls sender) e ch).2)
      (GroupKept (startOf threeCalls k + 1 : Int)) mixedArrivals receiver := by
    obtain rfl | rfl : k = 0 ∨ k = 1 := by omega
    all_goals
      refine ⟨trivial, trivial, trivial, ?_, trivial, trivial, trivial, ?_, trivial, trivial, trivial,
        trivial⟩
    all_goals
      unfold GroupKept
      decide +kernel
  refine ⟨hexact.2.2 0 ⟨fun _ => nonceOf 0, longPacket 1⟩ rfl ?_ (hkept 0 (by decide)),
    hexact.2.2 1 ⟨fun _ => nonceOf 0, [0x45]⟩ rfl ?_ (hkept 1 (by decide)),
    hexact.2.1 2⟩
  · intro i hi
    have hcount : wireCount (longPacket 1) = 2 := by decide +kernel
    have htwo : i < 2 := hcount ▸ hi
    obtain rfl | rfl : i = 0 ∨ i = 1 := by omega
    · have hfirst : takenAfter 0 0 (mixedArrivals.take 5) = true := by decide +kernel
      obtain ⟨wire, hwire, hpasses⟩ := (Option.any_eq_true _ _).mp hfirst
      exact ⟨mixedArrivals.take 5, 5, mixedArrivals.drop 6, wire, rfl, hwire, hpasses⟩
    · have hlast : takenAfter 0 1 [] = true := by decide +kernel
      obtain ⟨wire, hwire, hpasses⟩ := (Option.any_eq_true _ _).mp hlast
      exact ⟨[], 0, mixedArrivals.drop 1, wire, rfl, hwire, hpasses⟩
  · intro i hi
    obtain rfl : i = 0 := Nat.lt_one_iff.mp hi
    have honly : takenAfter 1 0 (mixedArrivals.take 2) = true := by decide +kernel
    obtain ⟨wire, hwire, hpasses⟩ := (Option.any_eq_true _ _).mp honly
    exact ⟨mixedArrivals.take 2, 2, mixedArrivals.drop 3, wire, rfl, hwire, hpasses⟩

end Transparent
end PyVpn
