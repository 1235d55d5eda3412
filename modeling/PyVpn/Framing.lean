import PyVpn.Frames
import PyVpn.Packet

/-! The stream framing of `protocol/framing.py`: `read_frame` gives back what
`frame_packet` wrote, wherever the connection breaks off. -/
namespace PyVpn
open BigEndian

def frameSize : Nat := 2

/-- An `asyncio.StreamReader` whose stream ends after the pending bytes. -/
structure StreamReader where
  pending : Bytes

/-- `await reader.readexactly(n)`; an `IncompleteReadError` is `none`, and has taken the
bytes that were left. -/
def readexactly (n : Nat) : Py StreamReader (Option Bytes) := do
  let reader ← Py.self
  if n ≤ reader.pending.length then
    Py.assign fun reader => { reader with pending := reader.pending.drop n }
    return some (reader.pending.take n)
  else
    Py.assign fun reader => { reader with pending := [] }
    return none

def readFrame : Py StreamReader (Option Bytes) := do
  match ← readexactly frameSize with
  | none => return none
  | some raw =>
    let length ← Py.ofExcept (unpack frameSize raw)
    readexactly length

def afterFrames (calls : Nat) (reader : StreamReader) : StreamReader :=
  (fun reader => (readFrame reader).2)^[calls] reader

theorem readexactly_run (n : Nat) (pending : Bytes) :
    readexactly n ⟨pending⟩ =
      (.ok (Frames.readExactly n pending).1, ⟨(Frames.readExactly n pending).2⟩) := by
  unfold readexactly Frames.readExactly
  by_cases h : n ≤ pending.length
  · simp [h]
  · simp [h]

/-- `read_frame` never raises: it reads one frame with a two-byte length. -/
theorem readFrame_run (pending : Bytes) :
    readFrame ⟨pending⟩ =
      (.ok (Frames.readFrame frameSize pending).1, ⟨(Frames.readFrame frameSize pending).2⟩) := by
  unfold readFrame Frames.readFrame
  rw [Py.bind_run, readexactly_run]
  by_cases hlong : frameSize ≤ pending.length
  · have hread : Frames.readExactly frameSize pending =
        (some (pending.take frameSize), pending.drop frameSize) := if_pos hlong
    have hunpack : unpack frameSize (pending.take frameSize) =
        .ok (ofBe (pending.take frameSize)) := if_pos (by simpa using hlong)
    simp only [hread, Py.bind_run, hunpack, Py.ofExcept_run, readexactly_run]
  · rw [Frames.readExactly_short (Nat.lt_of_not_le hlong)]
    rfl

theorem afterFrames_run (calls : Nat) (pending : Bytes) :
    afterFrames calls ⟨pending⟩ = ⟨Frames.afterReads frameSize calls pending⟩ := by
  induction calls generalizing pending with
  | zero => rfl
  | succ calls ih =>
    rw [afterFrames, Function.iterate_succ_apply, readFrame_run, Frames.afterReads_succ]
    exact ih (Frames.readFrame frameSize pending).2

theorem framePacket_run {data : Bytes} (h : data.length ≤ 65535) :
    framePacket data = .ok (Frames.frame frameSize data) := by
  have hlength : data.length < 256 ^ 2 := by omega
  rw [framePacket, pack_ok hlength]
  rfl

/-- On a stream of framed packets that ends anywhere, each call of `read_frame` returns the
packet whose turn it is when its whole frame lies before the end, and `None` otherwise. -/
theorem framing_exact (packets : List Bytes) (h : ∀ packet ∈ packets, packet.length ≤ 65535) :
    ∃ frames, packets.mapM framePacket = .ok frames ∧ ∀ cut calls : Nat,
      (readFrame (afterFrames calls ⟨frames.flatten.take cut⟩)).1 =
        .ok (if (frames.take (calls + 1)).flatten.length ≤ cut then packets[calls]? else none) := by
  refine ⟨packets.map (Frames.frame frameSize), mapM_ok fun p hp => framePacket_run (h p hp), ?_⟩
  intro cut calls
  have hbound : ∀ packet ∈ packets, packet.length < 256 ^ frameSize :=
    fun packet hpacket => Nat.lt_of_le_of_lt (h packet hpacket) (by decide)
  rw [afterFrames_run, readFrame_run, ← List.map_take]
  exact congrArg Except.ok (Frames.read_cut (by decide) hbound cut calls)

/-- Two packets, the first one empty, and an end of the stream inside the second one. -/
theorem framing_exact_cut :
    ∃ frames, [[], [1, 2]].mapM framePacket = .ok frames ∧ ∀ cut calls : Nat,
      (readFrame (afterFrames calls ⟨frames.flatten.take cut⟩)).1 =
        .ok (if (frames.take (calls + 1)).flatten.length ≤ cut then
          ([[], [1, 2]] : List Bytes)[calls]? else none) :=
  framing_exact [[], [1, 2]] (by decide)

end PyVpn
