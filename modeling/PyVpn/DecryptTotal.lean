import PyVpn.EventRun
import PyVpn.Fragments
import PyVpn.Transparent

/-! Whether `decrypt` can raise. A group counts as complete when it has as many
fragments as its header announces, whatever their indices, while the join asks for the
indices from 0 on. -/
namespace PyVpn
open EventRun

/-- What the owner of a channel calls on it. -/
inductive ChannelCall where
  | encrypt (nonces : Nat → Nonce) (plaintext : Bytes)
  | decrypt (now : Time) (wire : Bytes)
  | cleanupFragments (now : Time)

/-- A fragment as its header describes it, with the counter of the packet it came in. -/
structure Fragment where
  counter : Nat
  mark : UInt8
  total : UInt8
  index : UInt8
  raw : Bytes

def Fragment.groupId (f : Fragment) : Int := f.counter - f.index.toNat

def Fragment.payload (f : Fragment) : Bytes := f.mark :: f.total :: f.index :: f.raw

section
variable (P : Primitives)

def channelStep (ch : DataChannel) : ChannelCall → DataChannel
  | .encrypt nonces plaintext => (encrypt P nonces plaintext ch).2
  | .decrypt now wire => (decrypt P now wire ch).2
  | .cleanupFragments now => cleanupFragments now ch

/-- The payload of a wire that the replay window and the AEAD let through. -/
def openedPayload (ch : DataChannel) (wire : Bytes) : Option (Nat × Bytes) := do
  let payload ← dataPayload wire
  guard (ch.replay.check (counterOf payload)).1
  let inner ← (openSealed P ch (payload.drop 4) (ch.sharedId.val ++ payload.take 4)).toOption
  guard (inner ≠ [])
  let plain ← decompress P inner
  return (counterOf payload, plain)

/-- The fragment in that payload, if it has the mark and a whole header. -/
def carriedFragment (ch : DataChannel) (wire : Bytes) : Option Fragment :=
  match openedPayload P ch wire with
  | some (counter, mark :: total :: index :: b :: rest) =>
    if mark &&& fragMask ≠ 0 then some ⟨counter, mark, total, index, b :: rest⟩ else none
  | _ => none

/-- A fragment that arrives has its index below its total, or its group is already in the
table under another total. -/
def IndexInRange (ch : DataChannel) : ChannelCall → Prop
  | .decrypt _ wire => ∀ f, carriedFragment P ch wire = some f →
      f.index < f.total ∨
        ∃ buf, ch.fragments.lookup f.groupId = some buf ∧ buf.total ≠ f.total
  | _ => True

end

def FragmentBuffer.Tidy (buf : FragmentBuffer) : Prop :=
  ∀ index ∈ buf.fragments, index < buf.total

/-- Every group in the table has all its indices below its total. -/
def DataChannel.Tidy (ch : DataChannel) : Prop :=
  ∀ groupId buf, ch.fragments.lookup groupId = some buf → buf.Tidy

section
variable {P : Primitives} {ch : DataChannel} {buf : FragmentBuffer} {wire : Bytes} {f : Fragment}

theorem FragmentBuffer.Tidy.join (h : buf.Tidy)
    (hfull : buf.fragments.keys.length = buf.total.toNat) :
    ∃ data, joinFragments buf = .ok data := by
  have hinj : Function.Injective UInt8.toNat := fun _ _ hab => UInt8.toNat_inj.mp hab
  have hsubset : buf.fragments.keys.toFinset.image UInt8.toNat ⊆
      Finset.range buf.total.toNat := by
    intro i hi
    obtain ⟨index, hindex, rfl⟩ := Finset.mem_image.mp hi
    exact Finset.mem_range.mpr (h index (AList.mem_keys.mpr (List.mem_toFinset.mp hindex)))
  have hcard : (buf.fragments.keys.toFinset.image UInt8.toNat).card = buf.total.toNat := by
    rw [Finset.card_image_of_injective _ hinj,
      List.toFinset_card_of_nodup buf.fragments.keys_nodup, hfull]
  have hall : buf.fragments.keys.toFinset.image UInt8.toNat = Finset.range buf.total.toNat :=
    Finset.eq_of_subset_of_card_le hsubset (by rw [hcard, Finset.card_range])
  have hfound : ∀ i ∈ List.range buf.total.toNat,
      fragmentAt buf i = .ok ((buf.fragments.lookup (UInt8.ofNat i)).getD []) := by
    intro i hi
    have himage : i ∈ buf.fragments.keys.toFinset.image UInt8.toNat := by
      rw [hall]
      exact Finset.mem_range.mpr (List.mem_range.mp hi)
    obtain ⟨index, hindex, rfl⟩ := Finset.mem_image.mp himage
    have hsome : (buf.fragments.lookup index).isSome :=
      AList.lookup_isSome.mpr (AList.mem_keys.mpr (List.mem_toFinset.mp hindex))
    obtain ⟨raw, hraw⟩ := Option.isSome_iff_exists.mp hsome
    rw [fragmentAt, UInt8.ofNat_toNat, hraw]
    rfl
  rw [joinFragments, mapM_ok hfound]
  exact ⟨_, rfl⟩

theorem FragmentBuffer.tidy_of_join (hfull : buf.fragments.keys.length = buf.total.toNat)
    {data : Bytes} (h : joinFragments buf = .ok data) : buf.Tidy := by
  have hbyte : ∀ i ∈ Finset.range buf.total.toNat, (UInt8.ofNat i).toNat = i := by
    intro i hi
    have htotal := buf.total.toNat_lt
    exact UInt8.toNat_ofNat_of_lt' (Nat.lt_trans (Finset.mem_range.mp hi) htotal)
  have hinj : Set.InjOn UInt8.ofNat (Finset.range buf.total.toNat) := by
    intro i hi j hj hij
    rw [← hbyte i hi, ← hbyte j hj, hij]
  obtain ⟨parts, hparts, -⟩ := bind_eq_ok.mp h
  have hsubset : (Finset.range buf.total.toNat).image UInt8.ofNat ⊆
      buf.fragments.keys.toFinset := by
    intro index hindex
    obtain ⟨i, hi, rfl⟩ := Finset.mem_image.mp hindex
    obtain ⟨raw, hraw⟩ := mapM_eq_ok hparts i (List.mem_range.mpr (Finset.mem_range.mp hi))
    apply List.mem_toFinset.mpr
    apply AList.mem_keys.mp
    apply AList.lookup_isSome.mp
    cases hfound : buf.fragments.lookup (UInt8.ofNat i) with
    | none =>
      rw [fragmentAt, hfound] at hraw
      cases hraw
    | some raw' => rfl
  have hall : (Finset.range buf.total.toNat).image UInt8.ofNat = buf.fragments.keys.toFinset := by
    apply Finset.eq_of_subset_of_card_le hsubset
    rw [Finset.card_image_of_injOn hinj, Finset.card_range,
      List.toFinset_card_of_nodup buf.fragments.keys_nodup, hfull]
  intro index hindex
  have hmem : index ∈ (Finset.range buf.total.toNat).image UInt8.ofNat := by
    rw [hall]
    exact List.mem_toFinset.mpr (AList.mem_keys.mp hindex)
  obtain ⟨i, hi, rfl⟩ := Finset.mem_image.mp hmem
  apply UInt8.lt_iff_toNat_lt.mpr
  rw [hbyte i hi]
  exact Finset.mem_range.mp hi

theorem FragmentBuffer.Tidy.insert (h : buf.Tidy) {index : UInt8} (hindex : index < buf.total)
    (raw : Bytes) : ({ buf with fragments := buf.fragments.insert index raw }).Tidy := by
  intro i hi
  cases (AList.mem_insert _).mp hi with
  | inl heq => exact heq ▸ hindex
  | inr hmem => exact h i hmem

theorem DataChannel.Tidy.withFragment (h : ch.Tidy) (now : Time) (groupId : Int)
    {total index : UInt8} (hindex : index < total) (raw : Bytes)
    (htotal : (PyVpn.withFragment ch now groupId total index raw).total = total) :
    (PyVpn.withFragment ch now groupId total index raw).Tidy := by
  unfold PyVpn.withFragment at htotal ⊢
  cases hbuf : ch.fragments.lookup groupId with
  | none =>
    have hempty : (⟨total, ∅, now⟩ : FragmentBuffer).Tidy := fun i hi => by cases hi
    exact hempty.insert hindex raw
  | some buf =>
    rw [hbuf] at htotal
    have hlimit : index < buf.total := by
      rw [show buf.total = total from htotal]
      exact hindex
    exact (h groupId buf hbuf).insert hlimit raw

theorem DataChannel.Tidy.erase (h : ch.Tidy) (groupId : Int) :
    ({ ch with fragments := ch.fragments.erase groupId }).Tidy := by
  intro j buf hbuf
  by_cases hj : j = groupId
  · subst hj
    simp only [AList.lookup_erase] at hbuf
    cases hbuf
  · simp only [AList.lookup_erase_ne hj] at hbuf
    exact h j buf hbuf

theorem DataChannel.Tidy.fill (h : ch.Tidy) {groupId : Int} (hbuf : buf.Tidy) :
    ({ ch with fragments := ch.fragments.insert groupId buf }).Tidy :=
  Dict.forall_insert h hbuf

theorem DataChannel.Tidy.cleanup (h : ch.Tidy) (now : Time) : (cleanupFragments now ch).Tidy := by
  intro groupId buf hbuf
  cases lookup_cleanup now ch groupId with
  | inl hnone =>
    rw [hnone] at hbuf
    cases hbuf
  | inr hsame => exact h groupId buf (hsame ▸ hbuf)

theorem decrypt_opened (now : Time) :
    decrypt P now wire ch = match openedPayload P ch wire with
      | none => (.ok none, { ch with replay := windowAfter ch wire })
      | some (counter, plain) =>
        (if plain.length < 1 then return some plain
          else if plain.headD 0 &&& fragMask ≠ 0 then reassemble now counter plain
          else return some plain : Py DataChannel (Option Bytes))
          { ch with replay := windowAfter ch wire } := by
  rw [decrypt_run, authenticate_run, windowAfter, openedPayload]
  cases hpayload : dataPayload wire with
  | none => rfl
  | some payload =>
    simp only [Option.bind_eq_bind, Option.bind_some]
    cases hcheck : (ch.replay.check (counterOf payload)).1 with
    | false => rfl
    | true =>
      cases hopen : openSealed P ch (payload.drop 4) (ch.sharedId.val ++ payload.take 4) with
      | error e => rfl
      | ok inner =>
        cases inner with
        | nil => rfl
        | cons b inner =>
          cases hplain : decompress P (b :: inner) with
          | none => simp [Except.toOption, deliver, hplain]
          | some plain => simp [Except.toOption, deliver, hplain]

theorem carriedFragment_eq_some (h : carriedFragment P ch wire = some f) :
    openedPayload P ch wire = some (f.counter, f.payload) ∧ f.mark &&& fragMask ≠ 0 ∧
      f.raw ≠ [] := by
  unfold carriedFragment at h
  split at h
  · rename_i hopened
    split at h
    · rename_i hmark
      cases h
      exact ⟨hopened, hmark, List.cons_ne_nil _ _⟩
    · cases h
  · cases h

theorem decrypt_carried (h : carriedFragment P ch wire = some f) (now : Time) :
    decrypt P now wire ch =
      reassemble now f.counter f.payload { ch with replay := windowAfter ch wire } := by
  obtain ⟨hopened, hmark, -⟩ := carriedFragment_eq_some h
  have hlong : ¬ f.payload.length < 1 := by
    simp only [Fragment.payload, List.length_cons]
    omega
  have hbranch : f.payload.headD 0 &&& fragMask ≠ 0 := hmark
  rw [decrypt_opened, hopened]
  simp only [if_neg hlong, if_pos hbranch]

theorem decrypt_not_carried (h : carriedFragment P ch wire = none) (now : Time) :
    ∃ r, decrypt P now wire ch = (.ok r, { ch with replay := windowAfter ch wire }) := by
  rw [decrypt_opened]
  rw [carriedFragment] at h
  cases hopened : openedPayload P ch wire with
  | none => exact ⟨none, rfl⟩
  | some opened =>
    obtain ⟨counter, plain⟩ := opened
    simp only
    split
    · exact ⟨some plain, rfl⟩
    · split
      · rename_i hmark
        match plain with
        | [] => exact ⟨none, rfl⟩
        | [_] => exact ⟨none, rfl⟩
        | [_, _] => exact ⟨none, rfl⟩
        | [_, _, _] => exact ⟨none, rfl⟩
        | mark :: total :: index :: b :: rest =>
          have hbranch : mark &&& fragMask ≠ 0 := hmark
          simp only [hopened, if_pos hbranch] at h
          cases h
      · exact ⟨some plain, rfl⟩

theorem withFragment_total (now : Time) (groupId : Int) (total index : UInt8) (raw : Bytes) :
    (withFragment ch now groupId total index raw).total ≠ total ↔
      ∃ buf, ch.fragments.lookup groupId = some buf ∧ buf.total ≠ total := by
  unfold withFragment
  cases ch.fragments.lookup groupId with
  | none => simp
  | some buf => simp

theorem reassemble_mismatch (h : ch.Tidy) (hraw : f.raw ≠ []) (now : Time)
    (htotal : (withFragment ch now f.groupId f.total f.index f.raw).total ≠ f.total) :
    (reassemble now f.counter f.payload ch).1 = .ok none ∧
      (reassemble now f.counter f.payload ch).2.Tidy := by
  have hrun : reassemble now f.counter f.payload ch =
      (.ok none, { ch with fragments := ch.fragments.erase f.groupId }) :=
    (reassemble_run now f.counter f.mark f.total f.index f.raw hraw ch).trans (if_pos htotal)
  rw [hrun]
  exact ⟨rfl, h.erase f.groupId⟩

/-- A fragment that is stored leaves the table tidy exactly when its index is below its
total, and then the join does not raise. -/
theorem reassemble_stored (h : ch.Tidy) (hraw : f.raw ≠ []) (now : Time)
    (htotal : (withFragment ch now f.groupId f.total f.index f.raw).total = f.total) :
    ((reassemble now f.counter f.payload ch).2.Tidy ↔ f.index < f.total) ∧
      (f.index < f.total → ∃ r, (reassemble now f.counter f.payload ch).1 = .ok r) := by
  obtain ⟨buf, hbuf⟩ : ∃ buf, withFragment ch now f.groupId f.total f.index f.raw = buf :=
    ⟨_, rfl⟩
  have hrun := (reassemble_run now f.counter f.mark f.total f.index f.raw hraw ch).trans
    (if_neg (not_not.mpr htotal))
  change reassemble now f.counter f.payload ch = _ at hrun
  simp only [show ((f.counter : Int) - f.index.toNat) = f.groupId from rfl, hbuf] at hrun
  rw [hbuf] at htotal
  have hmem : f.index ∈ buf.fragments := by
    rw [← hbuf]
    exact (AList.mem_insert _).mpr (.inl rfl)
  have htidy : f.index < f.total ↔ buf.Tidy := by
    constructor
    · intro hindex
      have hkept := h.withFragment now f.groupId hindex f.raw (by rw [hbuf, htotal])
      rwa [hbuf] at hkept
    · intro hbelow
      exact htotal ▸ hbelow f.index hmem
  have hfilled : ({ ch with fragments := ch.fragments.insert f.groupId buf }).Tidy ↔ buf.Tidy := by
    constructor
    · intro hall
      exact hall f.groupId buf (AList.lookup_insert _)
    · exact h.fill
  rw [hrun, htidy, ← htotal]
  split
  · rename_i hfull
    cases hjoin : joinFragments buf with
    | error e =>
      refine ⟨hfilled, ?_⟩
      intro hbelow
      obtain ⟨data, hdata⟩ := hbelow.join hfull
      rw [hjoin] at hdata
      cases hdata
    | ok data =>
      have hbelow := FragmentBuffer.tidy_of_join hfull hjoin
      exact ⟨iff_of_true ((hfilled.mpr hbelow).erase f.groupId) hbelow, fun _ => ⟨some data, rfl⟩⟩
  · exact ⟨hfilled, fun _ => ⟨none, rfl⟩⟩

/-- One call keeps a tidy table tidy exactly under the condition. -/
theorem tidy_step (h : ch.Tidy) (call : ChannelCall) :
    (channelStep P ch call).Tidy ↔ IndexInRange P ch call := by
  cases call with
  | encrypt nonces plaintext =>
    obtain ⟨n, -, hrun⟩ := encrypt_frame P nonces plaintext ch
    rw [channelStep, hrun]
    exact iff_of_true h trivial
  | cleanupFragments now => exact iff_of_true (h.cleanup now) trivial
  | decrypt now wire =>
    simp only [channelStep, IndexInRange]
    cases hf : carriedFragment P ch wire with
    | none =>
      obtain ⟨r, hrun⟩ := decrypt_not_carried hf now
      rw [hrun]
      exact iff_of_true h fun f hsome => by cases hsome
    | some f =>
      have hraw := (carriedFragment_eq_some hf).2.2
      simp only [Option.some.injEq, forall_eq', decrypt_carried hf,
        ← withFragment_total now f.groupId f.total f.index f.raw]
      have hmoved : ({ ch with replay := windowAfter ch wire }).Tidy := h
      by_cases htotal : (withFragment ch now f.groupId f.total f.index f.raw).total = f.total
      · rw [(reassemble_stored hmoved hraw now htotal).1]
        exact ⟨.inl, fun hcase => hcase.elim id fun hne => absurd htotal hne⟩
      · exact iff_of_true (reassemble_mismatch hmoved hraw now htotal).2 (.inr htotal)

theorem decrypt_returns (h : ch.Tidy) {now : Time}
    (hok : IndexInRange P ch (.decrypt now wire)) : ∃ r, (decrypt P now wire ch).1 = .ok r := by
  cases hf : carriedFragment P ch wire with
  | none =>
    obtain ⟨r, hrun⟩ := decrypt_not_carried hf now
    exact ⟨r, by rw [hrun]⟩
  | some f =>
    have hraw := (carriedFragment_eq_some hf).2.2
    have hmoved : ({ ch with replay := windowAfter ch wire }).Tidy := h
    rw [decrypt_carried hf]
    by_cases htotal : (withFragment ch now f.groupId f.total f.index f.raw).total = f.total
    · refine (reassemble_stored hmoved hraw now htotal).2 ?_
      cases hok f hf with
      | inl hindex => exact hindex
      | inr hother => exact absurd htotal ((withFragment_total now _ _ _ _).mpr hother)
    · exact ⟨none, (reassemble_mismatch hmoved hraw now htotal).1⟩

end

/-- In the run from `ch`, no `decrypt` call raises, and the table is tidy in every state. -/
structure DecryptsTotally (P : Primitives) (ch : DataChannel) (calls : List ChannelCall) :
    Prop where
  returns : ∀ before now wire later, calls = before ++ .decrypt now wire :: later →
    ∃ r, (decrypt P now wire (run (channelStep P) before ch)).1 = .ok r
  tidy : ∀ before later, calls = before ++ later → (run (channelStep P) before ch).Tidy

/-- A channel decrypts totally exactly in the runs where each fragment that gets past the
window and the AEAD has its index below its total or meets its group under another total. -/
theorem decrypt_total_iff (P : Primitives) (ourId : SessionId) (peerId : Bytes)
    (cipher : Option Cipher) (compLzo : Bool) (window : WindowSize) (calls : List ChannelCall) :
    DecryptsTotally P (.new P ourId peerId cipher compLzo window) calls ↔
      Meets (channelStep P) (IndexInRange P) calls (.new P ourId peerId cipher compLzo window) := by
  have hnew : (DataChannel.new P ourId peerId cipher compLzo window).Tidy := by
    intro groupId buf hbuf
    cases hbuf
  have hiff := always_iff_meets (I := DataChannel.Tidy) (J := fun _ => True)
    (fun _ _ _ => trivial) (fun _ call _ h => tidy_step (P := P) h call) calls trivial hnew
  constructor
  · intro htotal
    exact hiff.mp htotal.tidy
  · intro hok
    refine ⟨?_, hiff.mpr hok⟩
    intro before now wire later hsplit
    have htidy := hiff.mpr hok before (.decrypt now wire :: later) hsplit
    exact decrypt_returns htidy ((meets_iff_split _ _ _ _).mp hok before _ later hsplit)

namespace Transparent

def strayFragment : Bytes :=
  sealWire primitives (cipherOf 9) receiver.sharedId (nonceOf 1) 1 [compNone, 0x80, 1, 1, 42]

/-- It raises, and stays in the table. -/
theorem stray_fragment_raises :
    (decrypt primitives 0 strayFragment receiver).1 = .error .keyError ∧
      ¬ DecryptsTotally primitives receiver [.decrypt 0 strayFragment] := by
  have hraise : (decrypt primitives 0 strayFragment receiver).1 = .error .keyError := by
    decide +kernel
  refine ⟨hraise, ?_⟩
  intro htotal
  obtain ⟨r, hr⟩ := htotal.returns [] 0 strayFragment [] rfl
  rw [run_nil, hraise] at hr
  cases hr

end Transparent
end PyVpn
