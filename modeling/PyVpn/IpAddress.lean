import PyVpn.Text
import Mathlib.Data.List.Basic

/-! What the repository uses of `str` on numbers and of the `ipaddress` module:
dotted quads, peer addresses, and the parsing of addresses and networks. -/
namespace PyVpn
open BigEndian

def dottedChars (octets : Bytes) : List Char :=
  ['.'].intercalate (octets.map fun b => Nat.toDigits 10 b.toNat)

def dotted (octets : Bytes) : String := String.ofList (dottedChars octets)

/-- `str(IPv4Address(n))`. -/
def strIPv4 (n : Nat) : String := dotted (be 4 n)

/-- The address of a peer: the tuple `(host, port)` that a socket bound to IPv4 reports. -/
structure Addr where
  host : { b : Bytes // b.length = 4 }
  port : UInt16
  deriving DecidableEq

def Addr.str (addr : Addr) : String :=
  String.ofList (['(', '\''] ++ (dottedChars addr.host.val ++ '\'' :: ([',', ' '] ++
    (Nat.toDigits 10 addr.port.toNat ++ [')']))))

theorem toDigits_inj {m n : Nat} (h : Nat.toDigits 10 m = Nat.toDigits 10 n) : m = n := by
  rw [← Nat.ofDigitChars_toDigits (b := 10) (n := m) (by decide) (by decide), h,
    Nat.ofDigitChars_toDigits (by decide) (by decide)]

theorem not_mem_toDigits {c : Char} (hc : c.isDigit = false) (n : Nat) :
    c ∉ Nat.toDigits 10 n := by
  intro h
  rw [Nat.isDigit_of_mem_toDigits (by decide) (by decide) h] at hc
  cases hc

theorem dottedChars_splitOn {octets : Bytes} (hne : octets ≠ []) :
    (dottedChars octets).splitOn '.' = octets.map fun b => Nat.toDigits 10 b.toNat := by
  apply List.splitOn_intercalate
  · intro l hl
    obtain ⟨o, -, rfl⟩ := List.mem_map.mp hl
    exact not_mem_toDigits (by decide) o.toNat
  · simpa using hne

theorem dottedChars_inj {a b : Bytes} (ha : a ≠ []) (hb : b ≠ [])
    (h : dottedChars a = dottedChars b) : a = b := by
  have hmap := dottedChars_splitOn ha
  rw [h, dottedChars_splitOn hb] at hmap
  have hinj : Function.Injective fun b : UInt8 => Nat.toDigits 10 b.toNat :=
    fun x y hxy => UInt8.toNat_inj.mp (toDigits_inj hxy)
  exact (List.map_injective_iff.mpr hinj hmap).symm

theorem dotted_inj {a b : Bytes} (ha : a ≠ []) (hb : b ≠ []) (h : dotted a = dotted b) : a = b :=
  dottedChars_inj ha hb (String.ofList_injective h)

theorem strIPv4_ne_empty (n : Nat) : strIPv4 n ≠ "" := by
  intro hempty
  have hchars : dottedChars (be 4 n) = [] := String.ofList_injective hempty
  have hne : be 4 n ≠ [] := by
    intro hnil
    have hlength := be_length 4 n
    rw [hnil] at hlength
    cases hlength
  -- four octets make four pieces
  have hpieces := congrArg List.length (dottedChars_splitOn hne)
  rw [hchars, List.length_map, be_length] at hpieces
  cases hpieces

theorem strIPv4_inj {m n : Nat} (hm : m < 2 ^ 32) (hn : n < 2 ^ 32)
    (h : strIPv4 m = strIPv4 n) : m = n := by
  have hne (k : Nat) : be 4 k ≠ [] := List.cons_ne_nil _ _
  exact be_inj (k := 4) hm hn (dotted_inj (hne m) (hne n) h)

theorem mem_dottedChars {c : Char} (hc : c.isDigit = false) (hdot : c ≠ '.') (octets : Bytes) :
    c ∉ dottedChars octets := by
  unfold dottedChars
  induction octets with
  | nil => exact List.not_mem_nil
  | cons o octets ih =>
    cases octets with
    | nil =>
      rw [List.map_singleton, List.intercalate_singleton]
      exact not_mem_toDigits hc o.toNat
    | cons o' octets =>
      rw [List.map_cons, List.map_cons, List.intercalate_cons_cons]
      intro h
      cases List.mem_append.mp h with
      | inl h =>
        cases List.mem_append.mp h with
        | inl h => exact not_mem_toDigits hc o.toNat h
        | inr h => exact hdot (List.mem_singleton.mp h)
      | inr h => exact ih h

theorem Addr.str_inj {a b : Addr} (h : a.str = b.str) : a = b := by
  have hchars := List.append_cancel_left (String.ofList_injective h)
  have hquote (addr : Addr) : '\'' ∉ dottedChars addr.host.val :=
    mem_dottedChars (by decide) (by decide) addr.host.val
  have htail : '\'' ∉ [',', ' '] ++ (Nat.toDigits 10 a.port.toNat ++ [')']) := by
    have hdigits : '\'' ∉ Nat.toDigits 10 a.port.toNat := not_mem_toDigits (by decide) _
    simp [hdigits]
  obtain ⟨hhost, -, hrest⟩ := (List.append_cons_inj_of_notMem (hquote a) htail).mp hchars
  have hne (addr : Addr) : addr.host.val ≠ [] := by
    intro hnil
    have hlen := addr.host.property
    rw [hnil] at hlen
    cases hlen
  have hport := List.append_cancel_right (List.append_cancel_left hrest)
  cases a with
  | mk hosta porta =>
    cases b with
    | mk hostb portb =>
      have h1 : hosta = hostb := Subtype.ext (dottedChars_inj (hne ⟨hosta, porta⟩)
        (hne ⟨hostb, portb⟩) hhost)
      have h2 : porta = portb := UInt16.toNat_inj.mp (toDigits_inj hport)
      rw [h1, h2]

/-- One octet of `IPv4Address(s)`: one to three digits, no leading zero, at most 255. -/
def parseOctet (s : List Char) : Except PyError Nat :=
  if s = [] ∨ s.all Char.isDigit = false ∨ s.length > 3 then .error .valueError
  else if s ≠ ['0'] ∧ s.head? = some '0' then .error .valueError
  else
    let octet := Nat.ofDigitChars 10 s 0
    if octet > 255 then .error .valueError else .ok octet

/-- `int(IPv4Address(s))`. -/
def ipIntFromString (s : List Char) : Except PyError Nat := do
  let octets := s.splitOn '.'
  if octets.length ≠ 4 then .error .valueError
  else
    let values ← octets.mapM parseOctet
    return ofBe (values.map UInt8.ofNat)

/-- `IPv4Address(n) + k` as an integer. -/
def ipAdd (n : Nat) (k : Int) : Except PyError Nat :=
  if 0 ≤ n + k ∧ n + k < 2 ^ 32 then .ok (n + k).toNat else .error .valueError

structure IPv4Network where
  networkAddress : Nat
  prefixlen : Nat
  deriving DecidableEq, Repr

def IPv4Network.broadcastAddress (net : IPv4Network) : Nat :=
  net.networkAddress + (2 ^ (32 - net.prefixlen) - 1)

/-- The prefix length whose mask is this integer, if it is a netmask. -/
def prefixFromIpInt (ipInt : Nat) : Option Nat :=
  (List.range 33).find? fun p => ipInt = 2 ^ 32 - 2 ^ (32 - p)

/-- The part after the slash: a prefix length, a netmask or a host mask. -/
def parsePrefix (s : List Char) : Except PyError Nat :=
  if s ≠ [] ∧ s.all Char.isDigit = true then
    let prefixlen := Nat.ofDigitChars 10 s 0
    if s.length ≤ maxStrDigits ∧ prefixlen ≤ 32 then .ok prefixlen else .error .valueError
  else do
    let ipInt ← ipIntFromString s
    match prefixFromIpInt ipInt with
    | some p => return p
    | none =>
      match prefixFromIpInt (2 ^ 32 - 1 - ipInt) with
      | some p => return p
      | none => .error .valueError

/-- `IPv4Network(subnet, strict=False)`: host bits of the address are dropped. -/
def ipv4Network (subnet : String) : Except PyError IPv4Network := do
  let mkNetwork (address prefixlen : Nat) : IPv4Network :=
    ⟨address / 2 ^ (32 - prefixlen) * 2 ^ (32 - prefixlen), prefixlen⟩
  match subnet.toList.splitOn '/' with
  | [addr] => return mkNetwork (← ipIntFromString addr) 32
  | [addr, mask] =>
    let address ← ipIntFromString addr
    return mkNetwork address (← parsePrefix mask)
  | _ => .error .valueError

theorem ipIntFromString_lt {s : List Char} {n : Nat} (h : ipIntFromString s = .ok n) :
    n < 2 ^ 32 := by
  unfold ipIntFromString at h
  by_cases hlen : (s.splitOn '.').length ≠ 4
  · rw [if_pos hlen] at h
    cases h
  · rw [if_neg hlen] at h
    cases hvalues : (s.splitOn '.').mapM parseOctet with
    | error e =>
      rw [hvalues] at h
      cases h
    | ok values =>
      rw [hvalues] at h
      cases h
      have hlt := ofBe_lt (values.map UInt8.ofNat)
      rw [List.length_map, mapM_length hvalues, not_not.mp hlen] at hlt
      exact hlt

theorem isDigit_range {c : Char} (h : c.isDigit = true) : 48 ≤ c.toNat ∧ c.toNat ≤ 57 :=
  Char.isDigit_iff_toNat.mp h

theorem toDigits_of_isDigit {c : Char} (h : c.isDigit = true) :
    Nat.toDigits 10 (c.toNat - 48) = [c] := by
  have hrange := isDigit_range h
  have hlt : c.toNat - 48 < 10 := by omega
  rw [Nat.toDigits_of_lt_base hlt]
  congr 1
  apply Char.toNat_inj.mp
  rw [Nat.toNat_digitChar_of_lt_ten hlt]
  omega

theorem toDigits_ofDigitChars {s : List Char} (hdigits : ∀ c ∈ s, c.isDigit = true) {m : Nat}
    (hm : 0 < m) :
    Nat.toDigits 10 (Nat.ofDigitChars 10 s m) = Nat.toDigits 10 m ++ s := by
  induction s generalizing m with
  | nil => simp
  | cons c s ih =>
    have hc := hdigits c List.mem_cons_self
    have hrange := isDigit_range hc
    have hstep := Nat.toDigits_append_toDigits (b := 10) (n := m) (d := c.toNat - 48) (by decide)
      hm (by omega)
    have htail := ih (fun d hd => hdigits d (List.mem_cons_of_mem c hd))
      (m := 10 * m + (c.toNat - 48)) (by omega)
    calc Nat.toDigits 10 (Nat.ofDigitChars 10 (c :: s) m)
        = Nat.toDigits 10 (10 * m + (c.toNat - 48)) ++ s := htail
      _ = Nat.toDigits 10 m ++ c :: s := by
        rw [← hstep, toDigits_of_isDigit hc, List.append_assoc, List.singleton_append]

theorem toDigits_read {s : List Char} (hne : s ≠ []) (hdigits : ∀ c ∈ s, c.isDigit = true)
    (hzero : s ≠ ['0'] → s.head? ≠ some '0') :
    Nat.toDigits 10 (Nat.ofDigitChars 10 s 0) = s := by
  cases s with
  | nil => exact absurd rfl hne
  | cons c s =>
    have hc := hdigits c List.mem_cons_self
    have hrange := isDigit_range hc
    by_cases hfirst : c = '0'
    · subst hfirst
      cases s with
      | nil => rfl
      | cons d s => exact absurd rfl (hzero (by simp))
    · have hpos : 0 < c.toNat - 48 := by
        have hne' : c.toNat ≠ 48 := fun heq => hfirst (Char.toNat_inj.mp heq)
        omega
      have hread := toDigits_ofDigitChars (fun d hd => hdigits d (List.mem_cons_of_mem c hd)) hpos
      have hstart : Nat.ofDigitChars 10 (c :: s) 0 = Nat.ofDigitChars 10 s (c.toNat - 48) := by
        rw [Nat.ofDigitChars_cons, Nat.mul_zero, Nat.zero_add]
        rfl
      rw [hstart, hread, toDigits_of_isDigit hc, List.singleton_append]

theorem parseOctet_iff {s : List Char} {n : Nat} :
    parseOctet s = .ok n ↔ n ≤ 255 ∧ s = Nat.toDigits 10 n := by
  constructor
  · intro h
    unfold parseOctet at h
    by_cases hshape : s = [] ∨ s.all Char.isDigit = false ∨ s.length > 3
    · rw [if_pos hshape] at h
      cases h
    by_cases hzero : s ≠ ['0'] ∧ s.head? = some '0'
    · rw [if_neg hshape, if_pos hzero] at h
      cases h
    rw [if_neg hshape, if_neg hzero] at h
    by_cases hbig : Nat.ofDigitChars 10 s 0 > 255
    · simp only [if_pos hbig] at h
      cases h
    · simp only [if_neg hbig] at h
      cases h
      push Not at hshape hzero
      obtain ⟨hne, hall, -⟩ := hshape
      have hdigits : ∀ c ∈ s, c.isDigit = true := by simpa using hall
      exact ⟨Nat.le_of_not_lt hbig, (toDigits_read hne hdigits hzero).symm⟩
  · intro h
    obtain ⟨hle, rfl⟩ := h
    have hall : ∀ m < 256, parseOctet (Nat.toDigits 10 m) = .ok m := by decide +kernel
    exact hall n (by omega)

/-- `ipIntFromString` reads what `str(IPv4Address)` writes, and nothing else. -/
theorem ipIntFromString_iff {s : List Char} {n : Nat} :
    ipIntFromString s = .ok n ↔ n < 2 ^ 32 ∧ s = (strIPv4 n).toList := by
  constructor
  · intro h
    refine ⟨ipIntFromString_lt h, ?_⟩
    unfold ipIntFromString at h
    by_cases hlen : (s.splitOn '.').length ≠ 4
    · rw [if_pos hlen] at h
      cases h
    rw [if_neg hlen] at h
    obtain ⟨values, hvalues, h⟩ := bind_eq_ok.mp h
    cases h
    obtain ⟨hoctet, hpieces⟩ :=
      mapM_inverse (· ≤ 255) (fun _ _ => parseOctet_iff.mp) hvalues
    have hfour : (values.map UInt8.ofNat).length = 4 := by
      rw [List.length_map, mapM_length hvalues]
      exact not_not.mp hlen
    have hbytes := be_ofBe (values.map UInt8.ofNat)
    rw [hfour] at hbytes
    have hwritten : values.map (Nat.toDigits 10) =
        (values.map UInt8.ofNat).map fun b => Nat.toDigits 10 b.toNat := by
      rw [List.map_map]
      refine List.map_congr_left fun b hb => congrArg (Nat.toDigits 10) ?_
      have hb := hoctet b hb
      exact (Nat.mod_eq_of_lt (by omega : b < 256)).symm
    rw [strIPv4, hbytes, dotted, String.toList_ofList, dottedChars, ← hwritten, ← hpieces,
      List.intercalate_splitOn]
  · intro h
    obtain ⟨hlt, rfl⟩ := h
    have hne : be 4 n ≠ [] := List.cons_ne_nil _ _
    have hsplit := dottedChars_splitOn hne
    have hparse : ((be 4 n).map fun b => Nat.toDigits 10 b.toNat).mapM parseOctet =
        .ok ((be 4 n).map UInt8.toNat) := by
      rw [List.mapM_map]
      refine mapM_ok fun b _ => parseOctet_iff.mpr ⟨?_, rfl⟩
      have hb := b.toNat_lt
      omega
    have hback : ((be 4 n).map UInt8.toNat).map UInt8.ofNat = be 4 n := by
      rw [List.map_map]
      exact (List.map_congr_left fun b _ => UInt8.ofNat_toNat).trans (List.map_id _)
    unfold ipIntFromString
    rw [strIPv4, dotted, String.toList_ofList, hsplit]
    simp only [List.length_map, be_length, ne_eq, not_true_eq_false, if_false, hparse]
    change Except.ok (ofBe (((be 4 n).map UInt8.toNat).map UInt8.ofNat)) = _
    rw [hback, ofBe_be_of_lt hlt]

theorem ipAdd_lt {n m : Nat} {k : Int} (h : ipAdd n k = .ok m) : m < 2 ^ 32 := by
  unfold ipAdd at h
  split at h
  · cases h
    omega
  · cases h

end PyVpn
