import PyVpn.EventRun
import PyVpn.Leases
import PyVpn.Routing

/-! The books of an address pool: its two maps are inverse to each other, and its free
addresses and the held ones make up the range. `allocate` keeps them for a client that
holds nothing; for one that holds an address it forgets that address in one map only. -/
namespace PyVpn
open EventRun Leases

theorem lookup_insert_update {κ ν : Type} [DecidableEq κ] (d : Dict κ ν) (k : κ) (v : ν) :
    (fun j => (d.insert k v).lookup j) = Function.update (fun j => d.lookup j) k (some v) := by
  funext j
  by_cases hj : j = k
  · subst hj
    simp
  · simp [hj]

theorem lookup_erase_update {κ ν : Type} [DecidableEq κ] (d : Dict κ ν) (k : κ) :
    (fun j => (d.erase k).lookup j) = Function.update (fun j => d.lookup j) k none := by
  funext j
  by_cases hj : j = k
  · subst hj
    simp
  · simp [hj]

/-- The books of the pool over the range it was made with. -/
def IpPool.Books (range : Finset Nat) (pool : IpPool) : Prop :=
  Complete (fun clientId => pool.allocated.lookup clientId)
    (fun n => pool.allocatedByInt.lookup n) ↑pool.available ↑range

section
variable {range : Finset Nat} {pool : IpPool} {clientId : String} {n : Nat}

theorem IpPool.Books.new {subnet : String} {poolRange : Option String}
    (h : IpPool.new subnet poolRange = .ok pool) : pool.Books pool.available := by
  obtain ⟨-, hallocated, hbyInt⟩ := IpPool.new_cases h
  unfold Books
  rw [hallocated, hbyInt]
  exact Complete.start

theorem IpPool.Books.lease (h : pool.Books range) (hnone : pool.allocated.lookup clientId = none)
    (hn : n ∈ pool.available) : (pool.lease clientId n).Books range := by
  have hgrant := Complete.grant h hnone (Finset.mem_coe.mpr hn)
  unfold Books IpPool.lease
  simp only [lookup_insert_update, Finset.coe_erase]
  exact hgrant

theorem IpPool.Books.allocate (h : pool.Books range)
    (hfresh : pool.allocated.lookup clientId = none ∨ pool.available = ∅) :
    (pool.allocate clientId).2.Books range := by
  obtain ⟨-, hrun⟩ | ⟨n, hn, hrun⟩ := pool.allocate_cases clientId
  · rw [hrun]
    exact h
  · have hnone : pool.allocated.lookup clientId = none :=
      hfresh.resolve_right (Finset.ne_empty_of_mem hn)
    rw [hrun]
    exact h.lease hnone hn

theorem IpPool.release_some (hn : pool.allocated.lookup clientId = some n) :
    pool.release clientId = { pool with
      available := insert n pool.available
      allocated := pool.allocated.erase clientId
      allocatedByInt := pool.allocatedByInt.erase n } := by
  rw [release, hn]

theorem IpPool.release_none (hnone : pool.allocated.lookup clientId = none) :
    pool.release clientId = pool := by
  rw [release, hnone]

theorem IpPool.Books.release (h : pool.Books range) (clientId : String) :
    (pool.release clientId).Books range := by
  cases hlookup : pool.allocated.lookup clientId with
  | none =>
    rw [release_none hlookup]
    exact h
  | some n =>
    have hrevoke := Complete.revoke h hlookup
    rw [release_some hlookup]
    unfold Books
    simp only [lookup_erase_update, Finset.coe_insert]
    exact hrevoke

theorem IpPool.Books.mem_range (h : pool.Books range)
    (hn : pool.allocated.lookup clientId = some n) : n ∈ range :=
  Finset.mem_coe.mp ((h.covers n).mpr (.inr ⟨clientId, hn⟩))

theorem IpPool.Books.queries (h : pool.Books range) (hbound : ∀ n ∈ range, n < 2 ^ 32)
    (clientId ip : String) :
    pool.getClientIp clientId = some ip ↔ pool.getClientIdByIp ip = .ok (some clientId) := by
  constructor
  · intro hip
    obtain ⟨n, hn, rfl⟩ := Option.map_eq_some_iff.mp hip
    have hparse := ipIntFromString_iff.mpr ⟨hbound n (h.mem_range hn), rfl⟩
    rw [getClientIdByIp, hparse]
    exact congrArg Except.ok ((h.owner_iff clientId n).mpr hn)
  · intro hid
    obtain ⟨n, hparse, hlookup⟩ := bind_eq_ok.mp hid
    obtain ⟨-, hip⟩ := ipIntFromString_iff.mp hparse
    have hheld := (h.owner_iff clientId n).mp (Except.ok.inj hlookup)
    have hstr : ip = strIPv4 n := String.toList_inj.mp hip
    rw [getClientIp, hheld, hstr]
    rfl

end

inductive PoolCall where
  | allocate (clientId : String)
  | release (clientId : String)

def poolCall (pool : IpPool) : PoolCall → IpPool
  | .allocate clientId => (pool.allocate clientId).2
  | .release clientId => pool.release clientId

/-- Every client that ever allocated has been released after that. -/
def AllReleased (calls : List PoolCall) : Prop :=
  ∀ before clientId after, calls = before ++ .allocate clientId :: after →
    .release clientId ∈ after

/-- What a pool should keep whatever is called on it. -/
structure PoolKept (range : Finset Nat) (calls : List PoolCall) (pool : IpPool) : Prop where
  books : pool.Books range
  queries : ∀ clientId ip,
    pool.getClientIp clientId = some ip ↔ pool.getClientIdByIp ip = .ok (some clientId)
  restored : AllReleased calls → pool.available = range

/-- A client that asks for an address holds none, or there is none to get. -/
def AsksOnce (pool : IpPool) : PoolCall → Prop
  | .allocate clientId => pool.allocated.lookup clientId = none ∨ pool.available = ∅
  | .release _ => True

def Unreleased (calls : List PoolCall) (pool : IpPool) : Prop :=
  ∀ clientId n, pool.allocated.lookup clientId = some n →
    ∃ before after, calls = before ++ .allocate clientId :: after ∧ .release clientId ∉ after

theorem Unreleased.later {calls : List PoolCall} {pool pool' : IpPool} {call : PoolCall}
    (h : Unreleased calls pool)
    (hheld : ∀ clientId n, pool'.allocated.lookup clientId = some n →
      call = .allocate clientId ∨
        pool.allocated.lookup clientId = some n ∧ call ≠ .release clientId) :
    Unreleased (calls ++ [call]) pool' := by
  intro clientId n hn
  cases hheld clientId n hn with
  | inl hcall => exact ⟨calls, [], by rw [hcall], List.not_mem_nil⟩
  | inr hold =>
    obtain ⟨before, after, hsplit, hafter⟩ := h clientId n hold.1
    refine ⟨before, after ++ [call], by simp [hsplit], ?_⟩
    intro hmem
    cases List.mem_append.mp hmem with
    | inl hmem => exact hafter hmem
    | inr hmem => exact hold.2 (List.mem_singleton.mp hmem).symm

theorem Unreleased.step {calls : List PoolCall} {pool : IpPool} (h : Unreleased calls pool)
    (call : PoolCall) : Unreleased (calls ++ [call]) (poolCall pool call) := by
  apply h.later
  intro clientId n hn
  cases call with
  | allocate asking =>
    by_cases hsame : clientId = asking
    · exact .inl (hsame ▸ rfl)
    · refine .inr ⟨?_, by simp⟩
      obtain ⟨-, hrun⟩ | ⟨m, -, hrun⟩ := pool.allocate_cases asking
      · simpa only [poolCall, hrun] using hn
      · simp only [poolCall, hrun, IpPool.lease] at hn
        rwa [AList.lookup_insert_ne hsame] at hn
  | release leaving =>
    simp only [poolCall] at hn
    by_cases hsame : clientId = leaving
    · subst hsame
      cases hlookup : pool.allocated.lookup clientId with
      | none =>
        rw [IpPool.release_none hlookup, hlookup] at hn
        cases hn
      | some m =>
        rw [IpPool.release_some hlookup] at hn
        simp only [AList.lookup_erase] at hn
        cases hn
    · refine .inr ⟨?_, fun heq => hsame (PoolCall.release.inj heq).symm⟩
      cases hlookup : pool.allocated.lookup leaving with
      | none => rwa [IpPool.release_none hlookup] at hn
      | some m =>
        rw [IpPool.release_some hlookup] at hn
        simpa only [AList.lookup_erase_ne hsame] using hn

theorem poolBooks_run {range : Finset Nat} {pool : IpPool} (h : pool.Books range)
    (calls : List PoolCall) (hok : Meets poolCall AsksOnce calls pool) :
    (run poolCall calls pool).Books range := by
  refine inv_run (I := fun pool => pool.Books range) ?_ calls pool h hok
  intro pool call hbooks hcall
  cases call with
  | allocate clientId => exact hbooks.allocate hcall
  | release clientId => exact hbooks.release clientId

theorem unreleased_run {pool : IpPool} (h : pool.allocated = ∅) (calls : List PoolCall) :
    Unreleased calls (run poolCall calls pool) := by
  refine history_run_always (I := Unreleased) ?_ (fun u call hu => hu.step call) calls
  intro clientId n hn
  rw [h] at hn
  cases hn

theorem AllReleased.nobody {calls : List PoolCall} {pool : IpPool} (h : AllReleased calls)
    (hunreleased : Unreleased calls pool) (clientId : String) :
    pool.allocated.lookup clientId = none := by
  cases hlookup : pool.allocated.lookup clientId with
  | none => rfl
  | some n =>
    obtain ⟨before, after, hsplit, hafter⟩ := hunreleased clientId n hlookup
    exact absurd (h before clientId after hsplit) hafter

/-- A second address for a client that holds one breaks the books. -/
theorem not_books_of_asks_again {range : Finset Nat} {pool : IpPool} {clientId : String}
    (h : pool.Books range) (hagain : ¬ AsksOnce pool (.allocate clientId)) :
    ¬ (poolCall pool (.allocate clientId)).Books range := by
  intro hafter
  obtain ⟨hheld, hany⟩ := not_or.mp hagain
  obtain ⟨m, hm⟩ := Option.ne_none_iff_exists'.mp hheld
  obtain ⟨hnone, -⟩ | ⟨n, hn, hrun⟩ := pool.allocate_cases clientId
  · exact hany hnone
  · have hne : m ≠ n := by
      intro hmn
      exact h.held_not_free clientId m hm (Finset.mem_coe.mpr (hmn ▸ hn))
    -- the number it held still leads to the client, but the client to the new one
    have hold : (poolCall pool (.allocate clientId)).allocatedByInt.lookup m = some clientId := by
      simp only [poolCall, hrun, IpPool.lease]
      rw [AList.lookup_insert_ne hne]
      exact (h.owner_iff clientId m).mpr hm
    have hnew : (poolCall pool (.allocate clientId)).allocated.lookup clientId = some n := by
      simp only [poolCall, hrun, IpPool.lease]
      exact AList.lookup_insert _
    exact hne (Option.some.inj (((hafter.owner_iff clientId m).mp hold).symm.trans hnew))

/-- A pool keeps its books in every state of a run exactly when no client asks for an
address while it holds one and there is one to get. -/
theorem pool_kept_iff (subnet : String) (poolRange : Option String) (pool : IpPool)
    (h : IpPool.new subnet poolRange = .ok pool) (calls : List PoolCall) :
    (∀ before after, calls = before ++ after →
      PoolKept pool.available before (run poolCall before pool)) ↔
    Meets poolCall AsksOnce calls pool := by
  obtain ⟨hbound, hallocated, -⟩ := IpPool.new_cases h
  constructor
  · intro hkept
    rw [meets_iff_split]
    intro before call after hsplit
    cases call with
    | release clientId => trivial
    | allocate clientId =>
      by_contra hagain
      have hbefore := (hkept before (.allocate clientId :: after) hsplit).books
      have hnext := (hkept (before ++ [.allocate clientId]) after (by simp [hsplit])).books
      rw [run_concat] at hnext
      exact not_books_of_asks_again hbefore hagain hnext
  · intro hok before after hsplit
    subst hsplit
    have hbooks := poolBooks_run (IpPool.Books.new h) before
      ((meets_append poolCall AsksOnce before after pool).mp hok).1
    refine ⟨hbooks, hbooks.queries hbound, fun hreleased => ?_⟩
    have hnobody := hreleased.nobody (unreleased_run hallocated before)
    exact Finset.coe_injective (hbooks.all_free hnobody)

namespace Transparent

def smallPool : IpPool :=
  match IpPool.new "10.8.0.0/24" (some "10.8.0.2-10.8.0.3") with
  | .ok pool => pool
  | .error _ => ⟨⟨0, 0⟩, "", ∅, ∅, ∅⟩

theorem smallPool_new :
    IpPool.new "10.8.0.0/24" (some "10.8.0.2-10.8.0.3") = .ok smallPool := by
  have hok : (IpPool.new "10.8.0.0/24" (some "10.8.0.2-10.8.0.3")).toBool = true := by
    decide +kernel
  unfold smallPool
  cases hnew : IpPool.new "10.8.0.0/24" (some "10.8.0.2-10.8.0.3") with
  | ok pool => rfl
  | error e =>
    rw [hnew] at hok
    cases hok

/-- A client that asks twice holds one address, and the first one leads to it for ever. -/
theorem pool_loses_address :
    let calls : List PoolCall := [.allocate "a", .allocate "a"]
    IpPool.new "10.8.0.0/24" (some "10.8.0.2-10.8.0.3") = .ok smallPool ∧
    ¬ PoolKept smallPool.available calls (run poolCall calls smallPool) ∧
    (run poolCall (calls ++ [.release "a"]) smallPool).available ≠ smallPool.available := by
  intro calls
  refine ⟨smallPool_new, ?_, by decide +kernel⟩
  intro h
  have howner : (run poolCall calls smallPool).allocatedByInt.lookup 0x0a080002 = some "a" := by
    decide +kernel
  have hheld : (run poolCall calls smallPool).allocated.lookup "a" = some 0x0a080003 := by
    decide +kernel
  have hfirst := (h.books.owner_iff "a" 0x0a080002).mp howner
  cases hheld.symm.trans hfirst

/-- A client that is released before it asks again. -/
theorem pool_kept_released :
    PoolKept smallPool.available [.allocate "a", .release "a", .allocate "a"]
      (run poolCall [.allocate "a", .release "a", .allocate "a"] smallPool) := by
  refine (pool_kept_iff "10.8.0.0/24" (some "10.8.0.2-10.8.0.3") smallPool
    smallPool_new
    [.allocate "a", .release "a", .allocate "a"]).mpr ⟨.inl ?_, trivial, .inl ?_, trivial⟩ _ [] rfl
  · decide +kernel
  · decide +kernel

end Transparent
end PyVpn
