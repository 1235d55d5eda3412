import PyVpn.Fragments
import PyVpn.Reassembly
import PyVpn.Transparent

/-! One sender, one receiver and a network that loses, repeats and reorders wires:
the receiving channel simulates abstract reassembly, with the packet counters as
part numbers and one `encrypt` call as one message. -/
namespace PyVpn
open EventRun Reassembly

structure Call where
  nonces : Nat → Nonce
  plaintext : Bytes

def send (P : Primitives) (call : Call) (ch : DataChannel) :
    Except PyError (List Bytes) × DataChannel := encrypt P call.nonces call.plaintext ch

/-- The `i`-th wire that the `k`-th call returned. -/
def sentWire (P : Primitives) (calls : List Call) (ch : DataChannel) (k i : Nat) : Option Bytes :=
  ((outputs (send P) calls ch)[k]?).bind fun r => (returned r.2)[i]?

/-- Number of counters that the first `k` calls consume. -/
def startOf (calls : List Call) (k : Nat) : Nat :=
  ((calls.take k).map fun call => wireCount call.plaintext).sum

/-- At the receiver: one sent wire arrives, or `cleanup_fragments` runs. -/
inductive Arrival where
  | deliver (k i : Nat) (now : Time)
  | cleanup (now : Time)

def receiveNext (P : Primitives) (wires : Nat → Nat → Option Bytes) :
    Arrival → DataChannel → Except PyError (Option Bytes) × DataChannel
  | .deliver k i now, ch =>
    match wires k i with
    | none => (.ok none, ch)
    | some wire => decrypt P now wire ch
  | .cleanup now, ch => (.ok none, cleanupFragments now ch)

/-- The group with this id is not among those a cleanup drops. -/
def GroupKept (groupId : Int) (ch : DataChannel) : Arrival → Prop
  | .deliver .. => True
  | .cleanup now => groupId ∈ ch.fragments → groupId ∈ (cleanupFragments now ch).fragments

section
variable {P : Primitives} {c : Cipher} {calls : List Call} {ch : DataChannel} {k i : Nat}
  {call : Call}

theorem startOf_succ (h : calls[k]? = some call) :
    startOf calls (k + 1) = startOf calls k + wireCount call.plaintext := by
  rw [startOf, List.take_add_one, h, List.map_append, List.sum_append]
  rfl

theorem startOf_mono (calls : List Call) : Monotone (startOf calls) := by
  apply monotone_nat_of_le_succ
  intro k
  cases h : calls[k]? with
  | none =>
    rw [startOf, startOf, List.take_add_one, h]
    exact Nat.le_of_eq (by simp)
  | some call =>
    rw [startOf_succ h]
    exact Nat.le_add_right _ _

theorem startOf_cons (call : Call) (calls : List Call) (k : Nat) :
    startOf (call :: calls) (k + 1) = wireCount call.plaintext + startOf calls k := by
  simp [startOf]

theorem startOf_inj {j : Nat} {call' : Call} (hj : calls[j]? = some call)
    (hk : calls[k]? = some call') (heq : startOf calls j = startOf calls k) : j = k := by
  have hpos := wireCount_pos call.plaintext
  have hpos' := wireCount_pos call'.plaintext
  have hsj := startOf_succ hj
  have hsk := startOf_succ hk
  by_contra hne
  cases Nat.lt_or_gt_of_ne hne with
  | inl hlt =>
    have hmono : startOf calls (j + 1) ≤ startOf calls k := startOf_mono calls hlt
    omega
  | inr hgt =>
    have hmono : startOf calls (k + 1) ≤ startOf calls j := startOf_mono calls hgt
    omega

/-- The counters of one call are the parts of one message. -/
def layout (calls : List Call) : Layout Nat Nat where
  parts k := Finset.Ioc (startOf calls k) (startOf calls (k + 1))
  disjoint := by
    intro j k n hj hk
    have hj' := Finset.mem_Ioc.mp hj
    have hk' := Finset.mem_Ioc.mp hk
    by_contra hne
    cases Nat.lt_or_gt_of_ne hne with
    | inl hlt =>
      have hmono : startOf calls (j + 1) ≤ startOf calls k := startOf_mono calls hlt
      omega
    | inr hgt =>
      have hmono : startOf calls (k + 1) ≤ startOf calls j := startOf_mono calls hgt
      omega

theorem parts_eq (h : calls[k]? = some call) : (layout calls).parts k =
    Finset.Ioc (startOf calls k) (startOf calls k + wireCount call.plaintext) := by
  rw [← startOf_succ h]
  rfl

/-- With no call out of range, the `i`-th wire of call `k` is the one sealed under
the `i`-th counter after those of the calls before. -/
theorem sentWire_eq (hc : ch.cipher = some c)
    (hcalls : ∀ call ∈ calls, wireCount call.plaintext ≤ 255)
    (hcount : ch.packetCounter + startOf calls calls.length < 256 ^ 4) (k i : Nat) :
    sentWire P calls ch k i = (calls[k]?).bind fun call =>
      if i < wireCount call.plaintext then
        some (sealWire P c ch.sharedId (call.nonces i) (ch.packetCounter + startOf calls k + 1 + i)
          (compressInner P ch (pieceAt call.plaintext i)))
      else none := by
  induction calls generalizing ch k with
  | nil => simp [sentWire, outputs]
  | cons call calls ih =>
    rw [List.length_cons, startOf_cons] at hcount
    have hok : Encryptable ch c call.plaintext :=
      ⟨hc, hcalls call List.mem_cons_self, by omega⟩
    have hrun := encrypt_run (P := P) call.nonces hok
    cases k with
    | zero =>
      simp only [sentWire, outputs, send, hrun, returned, wiresOf, List.getElem?_cons_zero,
        Option.bind_some, List.getElem?_map]
      by_cases hi : i < wireCount call.plaintext
      · simp [hi, wireAt, startOf]
      · simp [hi]
    | succ k =>
      have hrest := @ih { ch with
          packetCounter := ch.packetCounter + wireCount call.plaintext } hc
        (fun call' h' => hcalls call' (List.mem_cons_of_mem call h'))
        (by simp only; omega) k
      simp only [sentWire, outputs, send, hrun, List.getElem?_cons_succ] at hrest ⊢
      rw [hrest, startOf_cons]
      simp only [Nat.add_assoc]
      rfl

end
end PyVpn
