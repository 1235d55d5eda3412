import PyVpn.IpAddress
import PyVpn.Text
import Mathlib.Data.Finset.Max
import Mathlib.Order.Interval.Finset.Nat

/-! The address pool of `routing.py`. -/
namespace PyVpn

structure IpPool where
  network : IPv4Network
  serverIp : String
  available : Finset Nat
  allocated : Dict String Nat
  allocatedByInt : Dict Nat String

/-- First and last address of the pool. -/
def poolBounds (network : IPv4Network) (poolRange : Option String) : Except PyError (Nat × Nat) :=
  match poolRange with
  | some range =>
    if '-' ∈ range.toList then
      match range.toList.splitOn '-' with
      | [startStr, endStr] => do
        let start ← ipIntFromString (strip startStr)
        let stop ← ipIntFromString (strip endStr)
        return (start, stop)
      | _ => .error .valueError
    else subnetBounds
  | none => subnetBounds
where
  subnetBounds : Except PyError (Nat × Nat) := do
    let start ← ipAdd network.networkAddress 2
    let stop ← ipAdd network.broadcastAddress (-1)
    return (start, stop)

def IpPool.new (subnet : String) (poolRange : Option String) : Except PyError IpPool := do
  let network ← ipv4Network subnet
  let serverIp ← ipAdd network.networkAddress 1
  let (start, stop) ← poolBounds network poolRange
  return {
    network := network
    serverIp := strIPv4 serverIp
    available := Finset.Icc start stop
    allocated := ∅
    allocatedByInt := ∅ }

def IpPool.allocate (pool : IpPool) (clientId : String) : Option String × IpPool :=
  if h : pool.available.Nonempty then
    let ipInt := pool.available.min' h
    (some (strIPv4 ipInt), { pool with
      available := pool.available.erase ipInt
      allocated := pool.allocated.insert clientId ipInt
      allocatedByInt := pool.allocatedByInt.insert ipInt clientId })
  else (none, pool)

def IpPool.release (pool : IpPool) (clientId : String) : IpPool :=
  match pool.allocated.lookup clientId with
  | none => pool
  | some ipInt => { pool with
      available := insert ipInt pool.available
      allocated := pool.allocated.erase clientId
      allocatedByInt := pool.allocatedByInt.erase ipInt }

def IpPool.getClientIp (pool : IpPool) (clientId : String) : Option String :=
  (pool.allocated.lookup clientId).map strIPv4

def IpPool.getClientIdByIp (pool : IpPool) (ipStr : String) : Except PyError (Option String) := do
  let ipInt ← ipIntFromString ipStr.toList
  return pool.allocatedByInt.lookup ipInt

/-- The pool once `n` is given to a client. -/
def IpPool.lease (pool : IpPool) (clientId : String) (n : Nat) : IpPool :=
  { pool with
    available := pool.available.erase n
    allocated := pool.allocated.insert clientId n
    allocatedByInt := pool.allocatedByInt.insert n clientId }

theorem IpPool.allocate_cases (pool : IpPool) (clientId : String) :
    (pool.available = ∅ ∧ pool.allocate clientId = (none, pool)) ∨
    ∃ n ∈ pool.available, pool.allocate clientId = (some (strIPv4 n), pool.lease clientId n) := by
  unfold allocate
  by_cases h : pool.available.Nonempty
  · rw [dif_pos h]
    exact .inr ⟨pool.available.min' h, pool.available.min'_mem h, rfl⟩
  · rw [dif_neg h]
    exact .inl ⟨Finset.not_nonempty_iff_eq_empty.mp h, rfl⟩

theorem subnetBounds_lt {network : IPv4Network} {start stop : Nat}
    (h : poolBounds.subnetBounds network = .ok (start, stop)) : stop < 2 ^ 32 := by
  obtain ⟨_, -, h⟩ := bind_eq_ok.mp h
  obtain ⟨_, hstop, h⟩ := bind_eq_ok.mp h
  cases h
  exact ipAdd_lt hstop

theorem poolBounds_lt {network : IPv4Network} {poolRange : Option String} {start stop : Nat}
    (h : poolBounds network poolRange = .ok (start, stop)) : stop < 2 ^ 32 := by
  unfold poolBounds at h
  split at h
  · split at h
    · split at h
      · obtain ⟨_, -, h⟩ := bind_eq_ok.mp h
        obtain ⟨_, hstop, h⟩ := bind_eq_ok.mp h
        cases h
        exact ipIntFromString_lt hstop
      · cases h
    · exact subnetBounds_lt h
  · exact subnetBounds_lt h

theorem IpPool.new_cases {subnet : String} {poolRange : Option String} {pool : IpPool}
    (h : IpPool.new subnet poolRange = .ok pool) :
    (∀ n ∈ pool.available, n < 2 ^ 32) ∧ pool.allocated = ∅ ∧ pool.allocatedByInt = ∅ := by
  obtain ⟨network, -, h⟩ := bind_eq_ok.mp h
  obtain ⟨serverIp, -, h⟩ := bind_eq_ok.mp h
  obtain ⟨⟨start, stop⟩, hbounds, h⟩ := bind_eq_ok.mp h
  have hpool := (Except.ok.inj h).symm
  subst hpool
  refine ⟨?_, rfl, rfl⟩
  intro n hn
  exact Nat.lt_of_le_of_lt (Finset.mem_Icc.mp hn).2 (poolBounds_lt hbounds)

end PyVpn
