import Mathlib.Tactic.Ring
import Mathlib.Algebra.Order.Ring.Nat

/-! Fixed-width big-endian numerals over bytes: length, both round trips, bound. -/
namespace PyVpn.BigEndian

def be : Nat → Nat → List UInt8
  | 0, _ => []
  | k+1, n => UInt8.ofNat (n / 256 ^ k) :: be k n

def ofBe : List UInt8 → Nat
  | [] => 0
  | b :: bs => b.toNat * 256 ^ bs.length + ofBe bs

@[simp] theorem be_length (k n : Nat) : (be k n).length = k := by
  induction k with
  | zero => rfl
  | succ k ih => simp [be, ih]

theorem be_one (n : Nat) : be 1 n = [UInt8.ofNat n] := by simp [be]

theorem ofBe_lt (bs : List UInt8) : ofBe bs < 256 ^ bs.length := by
  induction bs with
  | nil => simp [ofBe]
  | cons b bs ih =>
    have hb : b.toNat ≤ 255 := Nat.le_of_lt_succ b.toNat_lt
    calc
      b.toNat * 256 ^ bs.length + ofBe bs
          < 255 * 256 ^ bs.length + 256 ^ bs.length :=
            Nat.add_lt_add_of_le_of_lt (Nat.mul_le_mul_right _ hb) ih
      _ = 256 ^ (bs.length + 1) := by ring

theorem ofBe_be (k n : Nat) : ofBe (be k n) = n % 256 ^ k := by
  induction k with
  | zero => simp [be, ofBe, Nat.mod_one]
  | succ k ih =>
    have h : (UInt8.ofNat (n / 256 ^ k)).toNat = n / 256 ^ k % 256 := by
      simp [UInt8.toNat_ofNat']
    rw [be, ofBe, be_length, h, ih, Nat.pow_succ, Nat.mod_mul]
    ring

theorem ofBe_be_of_lt {k n : Nat} (h : n < 256 ^ k) : ofBe (be k n) = n := by
  rw [ofBe_be, Nat.mod_eq_of_lt h]

theorem be_add_mul (k m n : Nat) : be k (m * 256 ^ k + n) = be k n := by
  induction k generalizing m with
  | zero => rfl
  | succ k ih =>
    have hd : (m * 256 ^ (k+1) + n) / 256 ^ k = m * 256 + n / 256 ^ k := by
      rw [show m * 256 ^ (k+1) + n = n + (m * 256) * 256 ^ k by ring,
        Nat.add_mul_div_right _ _ (Nat.pow_pos (by decide)), Nat.add_comm]
    have hb : UInt8.ofNat (m * 256 + n / 256 ^ k) = UInt8.ofNat (n / 256 ^ k) := by
      apply UInt8.toNat_inj.mp
      simp [UInt8.toNat_ofNat']
    have ht : be k (m * 256 ^ (k+1) + n) = be k n := by
      rw [show m * 256 ^ (k+1) + n = (m * 256) * 256 ^ k + n by ring, ih]
    rw [be, be, hd, hb, ht]

theorem be_ofBe (bs : List UInt8) : be bs.length (ofBe bs) = bs := by
  induction bs with
  | nil => rfl
  | cons b bs ih =>
    have hd : (b.toNat * 256 ^ bs.length + ofBe bs) / 256 ^ bs.length = b.toNat := by
      rw [Nat.add_comm, Nat.add_mul_div_right _ _ (Nat.pow_pos (by decide)),
        Nat.div_eq_of_lt (ofBe_lt bs), Nat.zero_add]
    simp only [List.length_cons, be, ofBe, hd, be_add_mul, ih, UInt8.ofNat_toNat]

theorem be_inj {k m n : Nat} (hm : m < 256 ^ k) (hn : n < 256 ^ k) (h : be k m = be k n) :
    m = n := by
  rw [← ofBe_be_of_lt hm, ← ofBe_be_of_lt hn, h]

end PyVpn.BigEndian
