import PyVpn.ConfigTypes
import PyVpn.IpAddress
import PyVpn.PrefixMask

/-! `server` directives with a netmask. `_netmask_to_cidr` counts the ones in whatever numbers
stand between the dots, so each text of numbers gets some prefix length; it is the one of the
subnet only if the text is a netmask. -/
namespace PyVpn
open BigEndian PrefixMask

def IsOctet (s : String) (octet : UInt8) : Prop :=
  s.toList ≠ [] ∧ (∀ c ∈ s.toList, c.isDigit = true) ∧
    Nat.ofDigitChars 10 s.toList 0 = octet.toNat

/-- The text is a dotted quad, and it is the mask of a prefix of `p` bits. -/
def SpellsMask (netmask : String) (p : Nat) : Prop :=
  p ≤ 32 ∧ ∃ octets : Bytes, octets.length = 4 ∧
    List.Forall₂ IsOctet (splitDots netmask) octets ∧ ofBe octets = mask 32 p

/-- The text is a netmask, or `int` does not read one of its parts. -/
def MaskOrUnreadable (netmask : String) : Prop :=
  (∃ p, SpellsMask netmask p) ∨ ∃ s ∈ splitDots netmask, intOfStr s = .error .valueError

/-- The value is the address with the prefix length of the netmask: whatever the address is,
both describe the same block. -/
def GivesSubnet (address netmask : String) (server : Value) : Prop :=
  ∃ p, SpellsMask netmask p ∧ server = .str (address ++ "/" ++ toString p) ∧
    ∀ a < 2 ^ 32, prefixBlock 32 a p = maskedBlock 32 a (mask 32 p)

/-- A line `server address netmask` raises `ValueError` or gives the subnet. -/
def DenotesSubnet (kwargs : Kwargs) (address netmask : String) : Prop :=
  parseDirective kwargs "server" [address, netmask] = .error .valueError ∨
  ∃ v, parseDirective kwargs "server" [address, netmask] = .ok (kwargs.insert .server v) ∧
    GivesSubnet address netmask v

section Octets
variable {s : String} {octet : UInt8} {netmask : String} {p : Nat}

theorem octets_eq {parts : List String} {octets : Bytes} (h : List.Forall₂ IsOctet parts octets) :
    octets = parts.map fun s => UInt8.ofNat (Nat.ofDigitChars 10 s.toList 0) := by
  induction h with
  | nil => rfl
  | cons hoctet _ ih =>
    obtain ⟨-, -, hvalue⟩ := hoctet
    rw [List.map_cons, hvalue, UInt8.ofNat_toNat, ← ih]

theorem decimalDigit_ascii {c : Char} (h : c.isDigit = true) :
    decimalDigit c = some (c.toNat - 48) := by
  have hrange := isDigit_range h
  have hfind : (decimalZeros.find? fun z => z ≤ c.toNat ∧ c.toNat < z + 10) = some 0x30 := by
    rw [decimalZeros, List.find?_cons_of_pos]
    simp only [decide_eq_true_eq]
    omega
  rw [decimalDigit, hfind]
  rfl

theorem readDigits_ascii {cs : List Char} (hne : cs ≠ []) (h : ∀ c ∈ cs, c.isDigit = true) :
    readDigits cs = some (cs.map fun c => c.toNat - 48) := by
  induction cs with
  | nil => exact absurd rfl hne
  | cons c cs ih =>
    have hc := decimalDigit_ascii (h c List.mem_cons_self)
    cases cs with
    | nil => simp [readDigits, hc]
    | cons d cs =>
      have hunderscore : d ≠ '_' := by
        rintro rfl
        exact absurd (h '_' (by simp)) (by decide)
      have hrest := ih (List.cons_ne_nil d cs) fun e he => h e (List.mem_cons_of_mem c he)
      rw [readDigits, hc, hrest]
      · rfl
      · exact List.cons_ne_nil d cs
      · intro rest heq
        exact hunderscore (List.cons.inj heq).1

theorem foldl_digits (cs : List Char) (m : Nat) :
    (cs.map fun c => c.toNat - 48).foldl (fun n d => 10 * n + d) m =
      Nat.ofDigitChars 10 cs m := by
  induction cs generalizing m with
  | nil => rfl
  | cons c cs ih =>
    rw [List.map_cons, List.foldl_cons, ih, Nat.ofDigitChars_cons]
    rfl

theorem intOfStr_octet (h : IsOctet s octet) :
    intOfStr s = .error .valueError ∨ intOfStr s = .ok octet.toNat := by
  obtain ⟨hne, hdigits, hvalue⟩ := h
  have hspace (c : Char) (hc : c.isDigit = true) : isIntSpace c = false := by
    have hrange := isDigit_range hc
    simp only [isIntSpace, isSpace, Bool.and_eq_false_iff]
    left
    simp only [Bool.or_eq_false_iff, Bool.and_eq_false_iff, decide_eq_false_iff_not, beq_eq_false_iff_ne]
    omega
  have hdrop : (s.toList.dropWhile isIntSpace).rdropWhile isIntSpace = s.toList := by
    have hfront : s.toList.dropWhile isIntSpace = s.toList := by
      rw [List.dropWhile_eq_self_iff]
      intro hlen
      simpa using hspace _ (hdigits _ (List.getElem_mem _))
    rw [hfront, List.rdropWhile_eq_self_iff]
    intro hlen
    simpa using hspace _ (hdigits _ (List.getLast_mem hlen))
  have hread : readNat s.toList = .error .valueError ∨ readNat s.toList = .ok octet.toNat := by
    rw [readNat, readDigits_ascii hne hdigits]
    simp only
    split
    · exact .inl rfl
    · rw [foldl_digits, hvalue]
      exact .inr rfl
  have hsign : intOfStr s = (readNat s.toList).map Int.ofNat := by
    unfold intOfStr
    rw [hdrop]
    split
    · rename_i cs hcs
      exact absurd (hdigits '-' (by rw [hcs]; exact List.mem_cons_self)) (by decide)
    · rename_i cs hcs
      exact absurd (hdigits '+' (by rw [hcs]; exact List.mem_cons_self)) (by decide)
    · rfl
  rw [hsign]
  obtain hread | hread := hread
  · rw [hread]
    exact .inl rfl
  · rw [hread]
    exact .inr rfl

/-- The ones in the octets of a prefix mask are those of the prefix. -/
theorem count_mask {octets : Bytes} (hp : p ≤ 32) (hlength : octets.length = 4)
    (hmask : ofBe octets = mask 32 p) :
    ((octets.map fun b => (b.toNat : Int)).flatMap format08b).count '1' = p := by
  have hall : ∀ p < 33,
      (((be 4 (mask 32 p)).map fun b => (b.toNat : Int)).flatMap format08b).count '1' = p := by
    decide +kernel
  have hoctets : octets = be 4 (mask 32 p) := by
    rw [← hmask, ← hlength, be_ofBe]
  rw [hoctets]
  exact hall p (by omega)

theorem netmaskToCidr_mask (h : SpellsMask netmask p)
    (hreads : ∀ s ∈ splitDots netmask, intOfStr s ≠ .error .valueError) :
    netmaskToCidr netmask = .ok p := by
  obtain ⟨hp, octets, hlength, hspells, hmask⟩ := h
  have hread : ∀ parts : List String, ∀ octets : Bytes, List.Forall₂ IsOctet parts octets →
      (∀ s ∈ parts, intOfStr s ≠ .error .valueError) →
        parts.mapM intOfStr = .ok (octets.map fun b => (b.toNat : Int)) := by
    intro parts octets hforall
    induction hforall with
    | nil => exact fun _ => rfl
    | cons hoctet _ ih =>
      intro hparts
      have hfirst := (intOfStr_octet hoctet).resolve_left (hparts _ List.mem_cons_self)
      rw [List.mapM_cons, hfirst, ih fun s hs => hparts s (List.mem_cons_of_mem _ hs)]
      rfl
  rw [netmaskToCidr, hread _ _ hspells hreads]
  exact congrArg Except.ok (count_mask hp hlength hmask)

end Octets

section Lines
variable {address netmask : String}

/-- A line with an address and a netmask raises `ValueError`, or every part of the mask was
read as a number and the ones in them were counted. -/
theorem server_line_cases (address netmask : String) :
    ((∃ s ∈ splitDots netmask, intOfStr s = .error .valueError) ∧
      lineValue .server "server" [address, netmask] = .error .valueError) ∨
    ((∀ s ∈ splitDots netmask, intOfStr s ≠ .error .valueError) ∧
      ∃ p, netmaskToCidr netmask = .ok p ∧
        lineValue .server "server" [address, netmask] =
          .ok (.str (address ++ "/" ++ toString p))) := by
  have hline : lineValue .server "server" [address, netmask] =
      (netmaskToCidr netmask).map fun p => .str (address ++ "/" ++ toString p) := rfl
  rw [hline]
  obtain ⟨hraises, hmask⟩ | ⟨hreads, octets, -, hmask⟩ := netmaskToCidr_cases netmask
  · rw [hmask]
    exact .inl ⟨hraises, rfl⟩
  · rw [hmask]
    exact .inr ⟨hreads, _, rfl, rfl⟩

theorem givesSubnet_iff {v : Value}
    (h : lineValue .server "server" [address, netmask] = .ok v) :
    GivesSubnet address netmask v ↔ MaskOrUnreadable netmask := by
  obtain ⟨-, hline⟩ | ⟨hreads, count, hcount, hline⟩ := server_line_cases address netmask
  · rw [hline] at h
    cases h
  · rw [hline] at h
    obtain rfl := Except.ok.inj h
    constructor
    · intro hgives
      obtain ⟨p, hspells, -⟩ := hgives
      exact .inl ⟨p, hspells⟩
    · intro hmask
      obtain ⟨p, hspells⟩ | ⟨s, hs, hraises⟩ := hmask
      · have hp := netmaskToCidr_mask hspells hreads
        rw [hcount] at hp
        obtain rfl := Except.ok.inj hp
        exact ⟨_, hspells, rfl, fun a ha => (maskedBlock_mask ha).symm⟩
      · exact absurd hraises (hreads s hs)

theorem denotesSubnet_iff (kwargs : Kwargs) (address netmask : String) :
    DenotesSubnet kwargs address netmask ↔ MaskOrUnreadable netmask := by
  have hfield : directives.lookup "server" = some (.field .server) := rfl
  have hrun := parseDirective_field hfield kwargs [address, netmask]
  unfold DenotesSubnet
  rw [hrun]
  cases hline : lineValue .server "server" [address, netmask] with
  | error e =>
    obtain ⟨hraises, herror⟩ | ⟨-, p, -, hok⟩ := server_line_cases address netmask
    · rw [herror] at hline
      obtain rfl := Except.error.inj hline
      exact iff_of_true (.inl rfl) (.inr hraises)
    · rw [hok] at hline
      cases hline
  | ok v =>
    rw [← givesSubnet_iff hline]
    constructor
    · intro hdenotes
      obtain herror | ⟨w, hstored, hgives⟩ := hdenotes
      · cases herror
      · have hlookup := congrArg (fun kwargs => kwargs.lookup .server) (Except.ok.inj hstored)
        simp only [AList.lookup_insert] at hlookup
        rwa [Option.some.inj hlookup]
    · exact fun hgives => .inr ⟨v, rfl, hgives⟩

end Lines

theorem parseConfig_field {text : String} {attrs : Attrs} {directive : String}
    {attr : ConfigField} {args : List String}
    (hlookup : directives.lookup directive = some (.field attr))
    (hlast : lastArgs directive (directiveLines text) = some args)
    (hrun : parseConfig text = .ok attrs) :
    lineValue attr directive args = .ok (attrs attr) := by
  obtain ⟨kwargs, hread, hinit⟩ := bind_eq_ok.mp hrun
  obtain ⟨hrecords, -⟩ := readOptions_records hread
  obtain ⟨-, -, hinit⟩ := bind_eq_ok.mp hinit
  obtain rfl := Except.ok.inj hinit
  obtain ⟨hnone, -⟩ | ⟨args', v, hsome, hvalue, hfield⟩ := hrecords.field_cases hlookup
  · rw [hlast] at hnone
    cases hnone
  · rw [hlast] at hsome
    rw [Option.some.inj hsome, hvalue, hfield]

/-- A line `server address netmask` raises `ValueError` or gives the subnet of its words
exactly if the mask is a netmask or has a part that `int` does not read, and so does the last
such line of a file. -/
theorem netmask_denotes_iff (address netmask : String) :
    (∀ kwargs, DenotesSubnet kwargs address netmask ↔ MaskOrUnreadable netmask) ∧
    ∀ text attrs, lastArgs "server" (directiveLines text) = some [address, netmask] →
      parseConfig text = .ok attrs →
        (GivesSubnet address netmask (attrs .server) ↔ MaskOrUnreadable netmask) := by
  refine ⟨fun kwargs => denotesSubnet_iff kwargs address netmask, ?_⟩
  intro text attrs hlast hrun
  exact givesSubnet_iff (parseConfig_field rfl hlast hrun)

theorem netmask_denotes_iff_quad : ∃ attrs,
    parseConfig "server 10.8.0.0 255.255.255.0" = .ok attrs ∧
    GivesSubnet "10.8.0.0" "255.255.255.0" (attrs .server) := by
  refine ⟨_, rfl, ((netmask_denotes_iff "10.8.0.0" "255.255.255.0").2
    "server 10.8.0.0 255.255.255.0" _ (by decide +kernel) rfl).mpr (.inl ⟨24, by decide, ?_⟩)⟩
  have hsplit : splitDots "255.255.255.0" = ["255", "255", "255", "0"] := by decide +kernel
  have hfull : IsOctet "255" 255 :=
    ⟨by decide +kernel, List.all_eq_true.mp (by decide +kernel), by decide +kernel⟩
  have hzero : IsOctet "0" 0 :=
    ⟨by decide +kernel, List.all_eq_true.mp (by decide +kernel), by decide +kernel⟩
  rw [hsplit]
  exact ⟨[255, 255, 255, 0], rfl, .cons hfull (.cons hfull (.cons hfull (.cons hzero .nil))),
    by decide⟩

/-- A mask with a hole counts as the one of sixteen bits, and so do two octets. -/
theorem holed_mask_accepted :
    (∃ attrs, parseConfig "server 10.8.0.0 255.0.255.0" = .ok attrs ∧
      attrs .server = .str "10.8.0.0/16") ∧
    ¬ DenotesSubnet ∅ "10.8.0.0" "255.0.255.0" ∧
    (∃ attrs, parseConfig "server 10.8.0.0 255.255" = .ok attrs ∧
      attrs .server = .str "10.8.0.0/16") ∧
    ¬ DenotesSubnet ∅ "10.8.0.0" "255.255" := by
  refine ⟨⟨_, rfl, rfl⟩, ?_, ⟨_, rfl, rfl⟩, ?_⟩
  · intro hdenotes
    obtain herror | ⟨v, -, p, ⟨hp, octets, -, hspells, hmask⟩, -⟩ := hdenotes
    · cases herror
    · have hsplit : splitDots "255.0.255.0" = ["255", "0", "255", "0"] := by decide +kernel
      rw [hsplit] at hspells
      have hnone : ∀ p < 33, mask 32 p ≠ ofBe [255, 0, 255, 0] := by decide
      refine hnone p (by omega) ?_
      rw [← hmask, octets_eq hspells]
      rfl
  · intro hdenotes
    obtain herror | ⟨v, -, p, ⟨hp, octets, hlength, hspells, -⟩, -⟩ := hdenotes
    · cases herror
    · have hparts := hspells.length_eq
      rw [hlength] at hparts
      exact absurd hparts (by decide +kernel)

end PyVpn
