import PyVpn.PoolBooks

/-! Which addresses a pool hands out over its life. The range taken from the subnet leaves
out the network's own address, the server's and the broadcast address; a range written
in the configuration is taken as it is. -/
namespace PyVpn
open EventRun

/-- An address for a client: in the subnet, and none of the three reserved ones. -/
structure IPv4Network.Usable (net : IPv4Network) (n : Nat) : Prop where
  above : net.networkAddress ≤ n
  below : n ≤ net.broadcastAddress
  notNetwork : n ≠ net.networkAddress
  notServer : n ≠ net.networkAddress + 1
  notBroadcast : n ≠ net.broadcastAddress

def poolAct (call : PoolCall) (pool : IpPool) : Option String × IpPool :=
  match call with
  | .allocate clientId => pool.allocate clientId
  | .release clientId => (none, pool.release clientId)

/-- Whatever is called, each address returned is usable. -/
def HandsOutUsable (pool : IpPool) : Prop :=
  ∀ calls, ∀ r ∈ outputs poolAct calls pool, ∀ ip, r.2 = some ip →
    ∃ n, ipIntFromString ip.toList = .ok n ∧ pool.network.Usable n

def writtenRange (poolRange : Option String) : Option (Nat × Nat) :=
  match (poolRange.getD "").toList.splitOn '-' with
  | [startStr, endStr] =>
    match ipIntFromString (strip startStr), ipIntFromString (strip endStr) with
    | .ok start, .ok stop => some (start, stop)
    | _, _ => none
  | _ => none

/-- A written range is empty, or it lies between the server's and the broadcast address. -/
def RangeInside (net : IPv4Network) (poolRange : Option String) : Prop :=
  ∀ start stop, writtenRange poolRange = some (start, stop) →
    stop < start ∨ net.networkAddress + 1 < start ∧ stop < net.broadcastAddress

section
variable {net : IPv4Network} {poolRange : Option String} {start stop n : Nat} {pool : IpPool}

theorem ipAdd_eq_ok {n m : Nat} {k : Int} (h : ipAdd n k = .ok m) : (m : Int) = n + k := by
  unfold ipAdd at h
  split at h
  · have hm := Except.ok.inj h
    omega
  · cases h

/-- The range of a pool is the written one, or what the subnet has beside the reserved
addresses. -/
theorem poolBounds_cases (h : poolBounds net poolRange = .ok (start, stop)) :
    writtenRange poolRange = some (start, stop) ∨
      (writtenRange poolRange = none ∧ start = net.networkAddress + 2 ∧
        stop + 1 = net.broadcastAddress) := by
  have hsubnet (h : poolBounds.subnetBounds net = .ok (start, stop)) :
      start = net.networkAddress + 2 ∧ stop + 1 = net.broadcastAddress := by
    obtain ⟨first, hfirst, h⟩ := bind_eq_ok.mp h
    obtain ⟨last, hlast, h⟩ := bind_eq_ok.mp h
    cases h
    have hstart := ipAdd_eq_ok hfirst
    have hstop := ipAdd_eq_ok hlast
    omega
  unfold poolBounds at h
  cases poolRange with
  | none => exact .inr ⟨rfl, hsubnet h⟩
  | some range =>
    simp only at h
    split at h
    · rename_i hdash
      split at h
      · rename_i startStr endStr hsplit
        obtain ⟨first, hfirst, h⟩ := bind_eq_ok.mp h
        obtain ⟨last, hlast, h⟩ := bind_eq_ok.mp h
        cases h
        refine .inl ?_
        rw [writtenRange, Option.getD_some, hsplit]
        simp only [hfirst, hlast]
      · cases h
    · rename_i hdash
      refine .inr ⟨?_, hsubnet h⟩
      have hwhole : range.toList.splitOn '-' = [range.toList] :=
        List.splitOn_eq_singleton hdash
      rw [writtenRange, Option.getD_some, hwhole]

/-- What is free or held lies in the range. -/
structure IpPool.Within (range : Finset Nat) (pool : IpPool) : Prop where
  free : pool.available ⊆ range
  held : ∀ clientId n, pool.allocated.lookup clientId = some n → n ∈ range

theorem IpPool.Within.act {range : Finset Nat} (h : pool.Within range) (call : PoolCall) :
    (poolAct call pool).2.Within range ∧
      ∀ ip, (poolAct call pool).1 = some ip → ∃ n ∈ range, ip = strIPv4 n := by
  cases call with
  | allocate clientId =>
    obtain ⟨-, hrun⟩ | ⟨n, hn, hrun⟩ := pool.allocate_cases clientId
    · rw [poolAct, hrun]
      refine ⟨h, ?_⟩
      intro ip hip
      cases hip
    · rw [poolAct, hrun]
      refine ⟨⟨?_, ?_⟩, ?_⟩
      · exact (Finset.erase_subset _ _).trans h.free
      · exact Dict.forall_insert h.held (h.free hn)
      · intro ip hip
        exact ⟨n, h.free hn, (Option.some.inj hip).symm⟩
  | release clientId =>
    refine ⟨?_, fun ip hip => by cases hip⟩
    cases hlookup : pool.allocated.lookup clientId with
    | none =>
      rw [poolAct, IpPool.release_none hlookup]
      exact h
    | some n =>
      rw [poolAct, IpPool.release_some hlookup]
      refine ⟨Finset.insert_subset (h.held clientId n hlookup) h.free, ?_⟩
      intro other m hm
      by_cases hsame : other = clientId
      · subst hsame
        simp only [AList.lookup_erase] at hm
        cases hm
      · rw [AList.lookup_erase_ne hsame] at hm
        exact h.held other m hm

theorem IpPool.Within.outputs {range : Finset Nat} (h : pool.Within range)
    (calls : List PoolCall) : ∀ r ∈ EventRun.outputs poolAct calls pool, ∀ ip, r.2 = some ip →
      ∃ n ∈ range, ip = strIPv4 n := by
  induction calls generalizing pool with
  | nil =>
    intro r hr
    cases hr
  | cons call calls ih =>
    obtain ⟨hnext, hreturned⟩ := h.act call
    intro r hr
    cases List.mem_cons.mp hr with
    | inl hhead =>
      subst hhead
      exact hreturned
    | inr htail => exact ih hnext r htail

theorem IpPool.allocate_first (havailable : pool.available = Finset.Icc start stop)
    (hle : start ≤ stop) (clientId : String) :
    (pool.allocate clientId).1 = some (strIPv4 start) ∧
      (pool.allocate clientId).2.available = Finset.Icc (start + 1) stop := by
  have hne : pool.available.Nonempty := by
    rw [havailable]
    exact Finset.nonempty_Icc.mpr hle
  have hmin : pool.available.min' hne = start := by
    apply le_antisymm
    · apply Finset.min'_le
      rw [havailable]
      exact Finset.left_mem_Icc.mpr hle
    · apply Finset.le_min'
      intro n hn
      rw [havailable] at hn
      exact (Finset.mem_Icc.mp hn).1
  unfold allocate
  rw [dif_pos hne]
  refine ⟨congrArg (fun n => some (strIPv4 n)) hmin, ?_⟩
  change pool.available.erase (pool.available.min' hne) = _
  rw [hmin, havailable]
  apply Finset.ext
  intro n
  simp only [Finset.mem_erase, Finset.mem_Icc]
  omega

/-- One client that keeps asking gets every address of the range in turn. -/
theorem IpPool.every_address (havailable : pool.available = Finset.Icc start stop)
    (hn : n ∈ Finset.Icc start stop) :
    ∃ calls, ∃ r ∈ EventRun.outputs poolAct calls pool, r.2 = some (strIPv4 n) := by
  obtain ⟨hstart, hstop⟩ := Finset.mem_Icc.mp hn
  obtain ⟨k, rfl⟩ := Nat.exists_eq_add_of_le hstart
  induction k generalizing pool start with
  | zero =>
    obtain ⟨hreturned, -⟩ := pool.allocate_first havailable hstop "client"
    exact ⟨[.allocate "client"], _, List.mem_singleton.mpr rfl, hreturned⟩
  | succ k ih =>
    obtain ⟨-, hrest⟩ := pool.allocate_first havailable (by omega) "client"
    have hshift : start + 1 + k = start + (k + 1) := by omega
    obtain ⟨calls, r, hr, hip⟩ := ih hrest (by rw [Finset.mem_Icc]; omega) (by omega) (by omega)
    exact ⟨.allocate "client" :: calls, r, List.mem_cons_of_mem _ hr, by rw [hip, hshift]⟩

end

/-- A pool only ever hands out usable addresses exactly when no range was written out for
it, or an empty one, or one between the server's and the broadcast address. -/
theorem hands_out_usable_iff (subnet : String) (poolRange : Option String) (pool : IpPool)
    (h : IpPool.new subnet poolRange = .ok pool) :
    HandsOutUsable pool ↔ RangeInside pool.network poolRange := by
  obtain ⟨hbound, hallocated, -⟩ := IpPool.new_cases h
  obtain ⟨network, -, h⟩ := bind_eq_ok.mp h
  obtain ⟨serverIp, -, h⟩ := bind_eq_ok.mp h
  obtain ⟨⟨start, stop⟩, hbounds, h⟩ := bind_eq_ok.mp h
  have hpool := (Except.ok.inj h).symm
  have havailable : pool.available = Finset.Icc start stop := by rw [hpool]
  have hnetwork : pool.network = network := by rw [hpool]
  have hparse : ∀ n ∈ pool.available, ipIntFromString (strIPv4 n).toList = .ok n :=
    fun n hn => ipIntFromString_iff.mpr ⟨hbound n hn, rfl⟩
  have hwithin : pool.Within pool.available := by
    refine ⟨Finset.Subset.refl _, ?_⟩
    intro clientId n hn
    rw [hallocated] at hn
    cases hn
  rw [hnetwork]
  constructor
  · intro husable first last hwritten
    obtain hsame | ⟨hnone, -⟩ := poolBounds_cases hbounds
    · cases hsame.symm.trans hwritten
      by_contra houtside
      obtain ⟨hle, hbad⟩ := not_or.mp houtside
      have hgiven (n : Nat) (hn : n ∈ Finset.Icc start stop) : network.Usable n := by
        obtain ⟨calls, r, hr, hip⟩ := pool.every_address havailable hn
        obtain ⟨m, hm, husable⟩ := husable calls r hr _ hip
        cases (hparse n (havailable ▸ hn)).symm.trans hm
        rwa [hnetwork] at husable
      have hfirst := hgiven start (Finset.left_mem_Icc.mpr (Nat.le_of_not_lt hle))
      have hlast := hgiven stop (Finset.right_mem_Icc.mpr (Nat.le_of_not_lt hle))
      apply hbad
      have habove := hfirst.above
      have hserver := hfirst.notServer
      have hnot := hfirst.notNetwork
      have hbelow := hlast.below
      have hbroadcast := hlast.notBroadcast
      omega
    · cases hnone.symm.trans hwritten
  · intro hinside calls r hr ip hip
    obtain ⟨n, hn, rfl⟩ := hwithin.outputs calls r hr ip hip
    refine ⟨n, hparse n hn, ?_⟩
    rw [hnetwork]
    rw [havailable] at hn
    obtain ⟨hstart, hstop⟩ := Finset.mem_Icc.mp hn
    have hbetween : network.networkAddress + 1 < start ∧ stop < network.broadcastAddress := by
      obtain hwritten | ⟨-, hfirst, hlast⟩ := poolBounds_cases hbounds
      · exact (hinside start stop hwritten).resolve_left (by omega)
      · omega
    constructor <;> omega

namespace Transparent

/-- Two addresses behind the server's. -/
theorem hands_out_usable_written : HandsOutUsable smallPool := by
  refine (hands_out_usable_iff "10.8.0.0/24" (some "10.8.0.2-10.8.0.3") smallPool
    smallPool_new).mpr ?_
  intro start stop hwritten
  have hrange : writtenRange (some "10.8.0.2-10.8.0.3") = some (0x0a080002, 0x0a080003) := by
    decide +kernel
  cases hrange.symm.trans hwritten
  exact .inr (by decide +kernel)

/-- The range of this pool starts at the server's own address. -/
def gatewayPool : IpPool :=
  match IpPool.new "10.8.0.0/24" (some "10.8.0.1-10.8.0.5") with
  | .ok pool => pool
  | .error _ => ⟨⟨0, 0⟩, "", ∅, ∅, ∅⟩

theorem gatewayPool_new :
    IpPool.new "10.8.0.0/24" (some "10.8.0.1-10.8.0.5") = .ok gatewayPool := by
  have hok : (IpPool.new "10.8.0.0/24" (some "10.8.0.1-10.8.0.5")).toBool = true := by
    decide +kernel
  unfold gatewayPool
  cases hnew : IpPool.new "10.8.0.0/24" (some "10.8.0.1-10.8.0.5") with
  | ok pool => rfl
  | error e =>
    rw [hnew] at hok
    cases hok

/-- The first client gets the address of the gateway. -/
theorem gateway_handed_out :
    IpPool.new "10.8.0.0/24" (some "10.8.0.1-10.8.0.5") = .ok gatewayPool ∧
      (gatewayPool.allocate "a").1 = some gatewayPool.serverIp ∧ ¬ HandsOutUsable gatewayPool := by
  refine ⟨gatewayPool_new, by decide +kernel, ?_⟩
  intro h
  have hfirst : (gatewayPool.allocate "a").1 = some "10.8.0.1" := by decide +kernel
  obtain ⟨n, hn, husable⟩ := h [.allocate "a"] _ (List.mem_singleton.mpr rfl) "10.8.0.1" hfirst
  have hparse : ipIntFromString "10.8.0.1".toList = .ok 0x0a080001 := by decide +kernel
  cases hparse.symm.trans hn
  exact husable.notServer (by decide +kernel)

end Transparent
end PyVpn
