import PyVpn.Opening
import Mathlib.Data.Finset.Card
import Mathlib.Data.Finset.Image
import Mathlib.Order.Interval.Finset.Nat

/-! What the receiving half makes of a piece the sending half produced: whole
packets pass through, the chunks of a fragmented one join to it again. -/
namespace PyVpn
section
variable {P : Primitives} {ch : DataChannel} {plaintext : Bytes}

theorem decompress_compressInner (hround : ∀ b, P.lz4Decompress (P.lz4Compress b) = .ok b)
    (ch : DataChannel) (hlz4 : ch.compLzo = true → P.hasLz4 = true) (plaintext : Bytes) :
    decompress P (compressInner P ch plaintext) = some plaintext := by
  have hne : compNone ≠ compLzo := by decide
  unfold compressInner
  split
  · rename_i hcompress
    have hhas := hlz4 (Bool.and_eq_true_iff.mp hcompress).1
    simp only
    split
    · simp [decompress, hhas, hround]
    · simp [decompress, hne]
  · simp [decompress, hne]

theorem and_fragMask {b : UInt8} (h : b < 0x80) : b &&& fragMask = 0 := by
  have hb : b.toNat < 2 ^ 7 := h
  apply UInt8.toNat_inj.mp
  have hmask : fragMask.toNat = 2 ^ 7 := rfl
  rw [UInt8.toNat_and, hmask, Nat.and_two_pow, Nat.testBit_lt_two_pow hb]
  rfl

def Unmarked (plaintext : Bytes) : Prop :=
  plaintext.length ≤ maxPayload → ∀ b ∈ plaintext.head?, b < 0x80

theorem deliver_whole (hround : ∀ b, P.lz4Decompress (P.lz4Compress b) = .ok b) (now : Time)
    (counter : Nat) (sender : DataChannel) (hlz4 : sender.compLzo = true → P.hasLz4 = true)
    (hwhole : plaintext.length ≤ maxPayload) (hhead : Unmarked plaintext) :
    deliver P now counter (compressInner P sender plaintext) ch = (.ok (some plaintext), ch) := by
  have hinner : ¬ (compressInner P sender plaintext).length < 1 := by
    have hpos := List.length_pos_iff.mpr (compressInner_ne_nil P sender plaintext)
    omega
  unfold deliver
  rw [if_neg hinner, decompress_compressInner hround sender hlz4]
  cases plaintext with
  | nil => rfl
  | cons b rest =>
    have hb : b < 0x80 := hhead hwhole b rfl
    simp [and_fragMask hb]

theorem chunkAt_length (i : Nat) :
    (chunkAt plaintext i).length = min maxPayload (plaintext.length - i * maxPayload) := by
  rw [chunkAt, slice_length]
  omega

theorem chunkAt_ne_nil {i : Nat} (hlong : ¬ plaintext.length ≤ maxPayload)
    (hi : i < fragmentTotal plaintext) : chunkAt plaintext i ≠ [] := by
  apply List.length_pos_iff.mp
  rw [chunkAt_length]
  unfold fragmentTotal maxPayload at *
  omega

theorem flatten_chunks (m : Nat) :
    ((List.range m).map (chunkAt plaintext)).flatten = plaintext.take (m * maxPayload) := by
  induction m with
  | zero => simp
  | succ m ih =>
    have htake : (plaintext.take (m * maxPayload + maxPayload)).take (m * maxPayload) =
        plaintext.take (m * maxPayload) := by
      rw [List.take_take, Nat.min_eq_left (Nat.le_add_right _ _)]
    rw [List.range_succ, List.map_append, List.flatten_append, ih, List.map_singleton,
      List.flatten_singleton, chunkAt, slice, ← htake, List.take_append_drop, Nat.succ_mul]

theorem flatten_all_chunks :
    ((List.range (fragmentTotal plaintext)).map (chunkAt plaintext)).flatten = plaintext := by
  rw [flatten_chunks]
  apply List.take_of_length_le
  unfold fragmentTotal maxPayload
  omega

theorem deliver_fragment (hround : ∀ b, P.lz4Decompress (P.lz4Compress b) = .ok b)
    (now : Time) (counter : Nat) (sender : DataChannel)
    (hlz4 : sender.compLzo = true → P.hasLz4 = true) (hlong : ¬ plaintext.length ≤ maxPayload) (i : Nat) :
    deliver P now counter (compressInner P sender (pieceAt plaintext i)) ch =
      reassemble now counter ((fragMask ||| compNone) ::
        UInt8.ofNat (fragmentTotal plaintext) :: UInt8.ofNat i :: chunkAt plaintext i) ch := by
  have hinner : ¬ (compressInner P sender (pieceAt plaintext i)).length < 1 := by
    have hpos := List.length_pos_iff.mpr (compressInner_ne_nil P sender (pieceAt plaintext i))
    omega
  have hmark : (fragMask ||| compNone) &&& fragMask ≠ 0 := by decide
  unfold deliver
  rw [if_neg hinner, decompress_compressInner hround sender hlz4, pieceAt, if_neg hlong]
  simp [hmark]

/-- A group's buffer holds the chunks with these packet numbers and no others;
`start` is the number before the first one of the group. -/
structure Holding (plaintext : Bytes) (start : Nat) (buf : FragmentBuffer) (held : Finset Nat) :
    Prop where
  total : buf.total = UInt8.ofNat (fragmentTotal plaintext)
  chunks : ∀ j : UInt8, buf.fragments.lookup j =
    if start + 1 + j.toNat ∈ held then some (chunkAt plaintext j.toNat) else none

variable {start : Nat} {buf : FragmentBuffer} {held : Finset Nat}

theorem toNat_ofNat_byte {i : Nat} (h : i ≤ 255) : (UInt8.ofNat i).toNat = i :=
  UInt8.toNat_ofNat_of_lt' (Nat.lt_succ_of_le h)

theorem holding_empty (now : Time) :
    Holding plaintext start ⟨UInt8.ofNat (fragmentTotal plaintext), ∅, now⟩ ∅ where
  total := rfl
  chunks := fun _ => by simp

theorem Holding.insert (h : Holding plaintext start buf held) {i : Nat} (hi : i ≤ 255) :
    Holding plaintext start
      { buf with fragments := buf.fragments.insert (UInt8.ofNat i) (chunkAt plaintext i) }
      (insert (start + 1 + i) held) where
  total := h.total
  chunks := fun j => by
    by_cases hj : j = UInt8.ofNat i
    · subst hj
      simp [AList.lookup_insert, toNat_ofNat_byte hi]
    · have hne : ¬ start + 1 + j.toNat = start + 1 + i := by
        intro heq
        apply hj
        apply UInt8.toNat_inj.mp
        rw [toNat_ofNat_byte hi]
        omega
      simp only [AList.lookup_insert_ne hj, h.chunks j, Finset.mem_insert, hne, false_or]

theorem Holding.keys_length (h : Holding plaintext start buf held)
    (htotal : fragmentTotal plaintext ≤ 255)
    (hheld : held ⊆ Finset.Ioc start (start + fragmentTotal plaintext)) :
    buf.fragments.keys.length = held.card := by
  have hmem (j : UInt8) : j ∈ buf.fragments.keys.toFinset ↔ start + 1 + j.toNat ∈ held := by
    rw [List.mem_toFinset, ← AList.mem_keys, ← AList.lookup_isSome, h.chunks j]
    split
    · simp [*]
    · simp [*]
  have himage : buf.fragments.keys.toFinset.image (fun j => start + 1 + j.toNat) = held := by
    apply Finset.ext
    intro n
    rw [Finset.mem_image]
    constructor
    · intro hindex
      obtain ⟨j, hj, rfl⟩ := hindex
      exact (hmem j).mp hj
    · intro hn
      have hrange := Finset.mem_Ioc.mp (hheld hn)
      have hbyte : (UInt8.ofNat (n - (start + 1))).toNat = n - (start + 1) :=
        toNat_ofNat_byte (by omega)
      have hback : start + 1 + (UInt8.ofNat (n - (start + 1))).toNat = n := by omega
      exact ⟨_, (hmem _).mpr (by rwa [hback]), hback⟩
  have hinj : Function.Injective (fun j : UInt8 => start + 1 + j.toNat) :=
    fun a b hab => UInt8.toNat_inj.mp (Nat.add_left_cancel hab)
  rw [← himage, Finset.card_image_of_injective _ hinj,
    List.toFinset_card_of_nodup buf.fragments.keys_nodup]

/-- The buffer is full exactly when all numbers of the group are held. -/
theorem Holding.full_iff (h : Holding plaintext start buf held)
    (htotal : fragmentTotal plaintext ≤ 255)
    (hheld : held ⊆ Finset.Ioc start (start + fragmentTotal plaintext)) :
    buf.fragments.keys.length = (UInt8.ofNat (fragmentTotal plaintext)).toNat ↔
      held = Finset.Ioc start (start + fragmentTotal plaintext) := by
  rw [h.keys_length htotal hheld, toNat_ofNat_byte htotal]
  constructor
  · intro hcard
    apply Finset.eq_of_subset_of_card_le hheld
    simp [hcard]
  · intro heq
    simp [heq]

theorem Holding.join (h : Holding plaintext start buf held)
    (htotal : fragmentTotal plaintext ≤ 255)
    (hheld : held = Finset.Ioc start (start + fragmentTotal plaintext)) :
    joinFragments buf = .ok plaintext := by
  have hparts : (List.range buf.total.toNat).mapM (fragmentAt buf) =
      .ok ((List.range (fragmentTotal plaintext)).map (chunkAt plaintext)) := by
    rw [h.total, toNat_ofNat_byte htotal]
    apply mapM_ok
    intro i hi
    have hlt := List.mem_range.mp hi
    have hbyte : (UInt8.ofNat i).toNat = i := toNat_ofNat_byte (by omega)
    have hin : start + 1 + i ∈ held := by
      rw [hheld, Finset.mem_Ioc]
      omega
    rw [fragmentAt, h.chunks, hbyte, if_pos hin]
  unfold joinFragments
  rw [hparts]
  exact congrArg Except.ok flatten_all_chunks

/-- What the table says of one group: no entry holds nothing. -/
def GroupHeld (plaintext : Bytes) (start : Nat) (entry : Option FragmentBuffer)
    (held : Finset Nat) : Prop :=
  match entry with
  | none => held = ∅
  | some buf => Holding plaintext start buf held

theorem GroupHeld.withFragment {entry : Option FragmentBuffer}
    (h : GroupHeld plaintext start entry held) (hch : ch.fragments.lookup (start + 1 : Int) = entry)
    (now : Time) {i : Nat} (hi : i ≤ 255) :
    Holding plaintext start (withFragment ch now (start + 1 : Int)
      (UInt8.ofNat (fragmentTotal plaintext)) (UInt8.ofNat i) (chunkAt plaintext i))
      (insert (start + 1 + i) held) := by
  unfold PyVpn.withFragment
  rw [hch]
  cases entry with
  | none =>
    have hheld : held = ∅ := h
    rw [hheld]
    exact (holding_empty now).insert hi
  | some buf => exact Holding.insert h hi

/-- One fragment more: the group is delivered with the last one, else stored. -/
theorem reassemble_fragment (hlong : ¬ plaintext.length ≤ maxPayload)
    (htotal : fragmentTotal plaintext ≤ 255)
    (hgroup : GroupHeld plaintext start (ch.fragments.lookup (start + 1 : Int)) held)
    {i : Nat} (hi : i < fragmentTotal plaintext)
    (hheld : insert (start + 1 + i) held ⊆ Finset.Ioc start (start + fragmentTotal plaintext))
    (now : Time) :
    ∃ buf, Holding plaintext start buf (insert (start + 1 + i) held) ∧
      reassemble now (start + 1 + i) ((fragMask ||| compNone) ::
        UInt8.ofNat (fragmentTotal plaintext) :: UInt8.ofNat i :: chunkAt plaintext i) ch =
        if insert (start + 1 + i) held = Finset.Ioc start (start + fragmentTotal plaintext) then
          (.ok (some plaintext), { ch with
            fragments := (ch.fragments.insert (start + 1 : Int) buf).erase (start + 1 : Int) })
        else (.ok none, { ch with fragments := ch.fragments.insert (start + 1 : Int) buf }) := by
  have hbyte : (UInt8.ofNat i).toNat = i := toNat_ofNat_byte (by omega)
  have hid : ((start + 1 + i : Nat) : Int) - ((UInt8.ofNat i).toNat : Int) = start + 1 := by
    rw [hbyte]
    omega
  have hbuf := hgroup.withFragment rfl now (i := i) (by omega)
  refine ⟨_, hbuf, ?_⟩
  have hrun := reassemble_run now (start + 1 + i) (fragMask ||| compNone)
    (UInt8.ofNat (fragmentTotal plaintext)) (UInt8.ofNat i) (chunkAt plaintext i)
    (chunkAt_ne_nil hlong hi) ch
  simp only [hid] at hrun
  rw [hrun, if_neg (not_not.mpr hbuf.total)]
  by_cases hfull : insert (start + 1 + i) held = Finset.Ioc start (start + fragmentTotal plaintext)
  · rw [if_pos ((hbuf.full_iff htotal hheld).mpr hfull), if_pos hfull,
      hbuf.join htotal hfull]
  · rw [if_neg (mt (hbuf.full_iff htotal hheld).mp hfull), if_neg hfull]

end
end PyVpn
