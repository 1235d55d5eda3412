import PyVpn.BigEndian
import Mathlib.Data.List.TakeDrop
import Mathlib.Logic.Function.Iterate

/-! Length-prefixed frames on a byte stream that may end anywhere. A read that meets the
end uses up what is left of the stream. -/
namespace PyVpn.Frames
open BigEndian

def readExactly (n : Nat) (stream : List UInt8) : Option (List UInt8) × List UInt8 :=
  if n ≤ stream.length then (some (stream.take n), stream.drop n) else (none, [])

def frame (width : Nat) (body : List UInt8) : List UInt8 := be width body.length ++ body

def readFrame (width : Nat) (stream : List UInt8) : Option (List UInt8) × List UInt8 :=
  match readExactly width stream with
  | (none, rest) => (none, rest)
  | (some header, rest) => readExactly (ofBe header) rest

def frames (width : Nat) (bodies : List (List UInt8)) : List UInt8 :=
  (bodies.map (frame width)).flatten

def afterReads (width reads : Nat) (stream : List UInt8) : List UInt8 :=
  (fun stream => (readFrame width stream).2)^[reads] stream

section
variable {width n cut : Nat} {body front rest stream : List UInt8} {bodies : List (List UInt8)}

theorem readExactly_append (h : front.length = n) :
    readExactly n (front ++ rest) = (some front, rest) := by
  subst h
  simp [readExactly]

theorem readExactly_short (h : stream.length < n) : readExactly n stream = (none, []) :=
  if_neg (Nat.not_le.mpr h)

theorem frame_length (width : Nat) (body : List UInt8) :
    (frame width body).length = width + body.length := by
  simp [frame]

theorem frames_cons (width : Nat) (body : List UInt8) (bodies : List (List UInt8)) :
    frames width (body :: bodies) = frame width body ++ frames width bodies := rfl

theorem readFrame_frame (h : body.length < 256 ^ width) (rest : List UInt8) :
    readFrame width (frame width body ++ rest) = (some body, rest) := by
  have hheader : readExactly width (frame width body ++ rest) =
      (some (be width body.length), body ++ rest) := by
    rw [frame, List.append_assoc]
    exact readExactly_append (be_length width body.length)
  rw [readFrame, hheader]
  simp only [ofBe_be_of_lt h]
  exact readExactly_append rfl

theorem readFrame_empty (hwidth : 0 < width) : readFrame width [] = (none, []) := by
  rw [readFrame, readExactly_short (by simpa using hwidth)]

theorem readFrame_cut (h : body.length < 256 ^ width) (hcut : cut < (frame width body).length)
    (rest : List UInt8) : readFrame width ((frame width body ++ rest).take cut) = (none, []) := by
  have hlen : cut < width + body.length := frame_length width body ▸ hcut
  rw [List.take_append_of_le_length (Nat.le_of_lt hcut)]
  by_cases hheader : cut < width
  · have hshort : ((frame width body).take cut).length < width := by
      rw [List.length_take]
      omega
    rw [readFrame, readExactly_short hshort]
  · have hsplit : (frame width body).take cut = be width body.length ++ body.take (cut - width) := by
      rw [frame, List.take_append, be_length, List.take_of_length_le (by simpa using hheader)]
    have hshort : (body.take (cut - width)).length < body.length := by
      rw [List.length_take]
      omega
    rw [hsplit, readFrame, readExactly_append (be_length width body.length)]
    simp only [ofBe_be_of_lt h]
    exact readExactly_short hshort

theorem afterReads_succ (width reads : Nat) (stream : List UInt8) :
    afterReads width (reads + 1) stream = afterReads width reads (readFrame width stream).2 :=
  Function.iterate_succ_apply _ _ _

theorem afterReads_empty (hwidth : 0 < width) (reads : Nat) : afterReads width reads [] = [] := by
  induction reads with
  | zero => rfl
  | succ reads ih => rw [afterReads_succ, readFrame_empty hwidth, ih]

theorem frames_take_length (width : Nat) (body : List UInt8) (bodies : List (List UInt8))
    (reads : Nat) : (frames width ((body :: bodies).take (reads + 1))).length =
      (frame width body).length + (frames width (bodies.take reads)).length := by
  rw [List.take_succ_cons, frames_cons, List.length_append]

theorem frames_cut_behind (hwhole : (frame width body).length ≤ cut)
    (bodies : List (List UInt8)) :
    (frames width (body :: bodies)).take cut =
      frame width body ++ (frames width bodies).take (cut - (frame width body).length) := by
  rw [frames_cons, List.take_append, List.take_of_length_le hwhole]

/-- Reading a stream of frames that is cut anywhere: each read returns the frame whose turn
it is if that frame lies before the cut, and nothing otherwise. -/
theorem read_cut (hwidth : 0 < width) (h : ∀ body ∈ bodies, body.length < 256 ^ width)
    (cut reads : Nat) :
    (readFrame width (afterReads width reads ((frames width bodies).take cut))).1 =
      if (frames width (bodies.take (reads + 1))).length ≤ cut then bodies[reads]? else none := by
  induction bodies generalizing cut reads with
  | nil =>
    have hempty : (frames width []).take cut = [] := List.take_nil
    rw [hempty, afterReads_empty hwidth, readFrame_empty hwidth]
    simp
  | cons body bodies ih =>
    have hbody : body.length < 256 ^ width := h body List.mem_cons_self
    have hrest := ih fun b hb => h b (List.mem_cons_of_mem body hb)
    rw [frames_take_length]
    by_cases hwhole : (frame width body).length ≤ cut
    · rw [frames_cut_behind hwhole]
      cases reads with
      | zero =>
        change (readFrame width (frame width body ++ _)).1 = _
        rw [readFrame_frame hbody]
        simp [frames, hwhole]
      | succ reads =>
        have hturn : (frame width body).length + (frames width (bodies.take (reads + 1))).length ≤
            cut ↔ (frames width (bodies.take (reads + 1))).length ≤
              cut - (frame width body).length := by omega
        rw [afterReads_succ, readFrame_frame hbody, hrest]
        simp only [hturn, List.getElem?_cons_succ]
    · rw [frames_cons]
      have hcut := Nat.lt_of_not_le hwhole
      have hbefore : ¬ (frame width body).length + (frames width (bodies.take reads)).length ≤ cut :=
        fun hle => hwhole (Nat.le_trans (Nat.le_add_right _ _) hle)
      rw [if_neg hbefore]
      cases reads with
      | zero => exact congrArg Prod.fst (readFrame_cut hbody hcut _)
      | succ reads =>
        rw [afterReads_succ, readFrame_cut hbody hcut, afterReads_empty hwidth,
          readFrame_empty hwidth]

/-- After as many reads as there are whole frames before the cut, those frames are gone from
the stream and nothing else is. -/
theorem afterReads_whole (h : ∀ body ∈ bodies, body.length < 256 ^ width) {reads : Nat}
    (hreads : reads ≤ bodies.length) (hcut : (frames width (bodies.take reads)).length ≤ cut) :
    afterReads width reads ((frames width bodies).take cut) =
      ((frames width bodies).take cut).drop (frames width (bodies.take reads)).length := by
  induction reads generalizing bodies cut with
  | zero => rfl
  | succ reads ih =>
    cases bodies with
    | nil => exact absurd hreads (Nat.not_succ_le_zero reads)
    | cons body bodies =>
      rw [frames_take_length] at hcut ⊢
      have hwhole : (frame width body).length ≤ cut := Nat.le_trans (Nat.le_add_right _ _) hcut
      have hrest := ih (fun b hb => h b (List.mem_cons_of_mem body hb))
        (Nat.le_of_succ_le_succ hreads) (Nat.le_sub_of_add_le' hcut)
      rw [frames_cut_behind hwhole, afterReads_succ, readFrame_frame (h body List.mem_cons_self), hrest,
        List.drop_append, List.drop_eq_nil_of_le (Nat.le_add_right _ _), List.nil_append,
        Nat.add_sub_cancel_left]

end

section Pieces
variable {width : Nat} {body rest stream more fed pending : List UInt8}
  {bodies taken : List (List UInt8)}

theorem eq_frame_of_read (h : readFrame width stream = (some body, rest)) :
    body.length < 256 ^ width ∧ stream = frame width body ++ rest := by
  unfold readFrame readExactly at h
  by_cases hheader : width ≤ stream.length
  · rw [if_pos hheader] at h
    simp only at h
    by_cases hbody : ofBe (stream.take width) ≤ (stream.drop width).length
    · rw [if_pos hbody] at h
      cases h
      have hwidth : (stream.take width).length = width := by simpa using hheader
      have hlength : ((stream.drop width).take (ofBe (stream.take width))).length =
          ofBe (stream.take width) := by simpa using hbody
      refine ⟨?_, ?_⟩
      · rw [hlength]
        simpa only [hwidth] using ofBe_lt (stream.take width)
      · have hfront : be width (ofBe (stream.take width)) = stream.take width := by
          simpa only [hwidth] using be_ofBe (stream.take width)
        rw [frame, hlength, hfront, List.append_assoc, List.take_append_drop,
          List.take_append_drop]
    · rw [if_neg hbody] at h
      cases h
  · rw [if_neg hheader] at h
    cases h

theorem frames_append (width : Nat) (bodies more : List (List UInt8)) :
    frames width (bodies ++ more) = frames width bodies ++ frames width more := by
  simp [frames]

/-- Of the bytes that have arrived, these frames were taken and these bytes wait. -/
structure Split (width : Nat) (fed : List UInt8) (taken : List (List UInt8))
    (pending : List UInt8) : Prop where
  bytes : fed = frames width taken ++ pending
  short : ∀ body ∈ taken, body.length < 256 ^ width

theorem Split.nil (width : Nat) (pending : List UInt8) : Split width pending [] pending :=
  ⟨rfl, fun _ h => absurd h List.not_mem_nil⟩

theorem Split.feed (h : Split width fed taken pending) (chunk : List UInt8) :
    Split width (fed ++ chunk) taken (pending ++ chunk) :=
  ⟨by rw [h.bytes, List.append_assoc], h.short⟩

theorem Split.read (h : Split width fed taken pending)
    (hread : readFrame width pending = (some body, rest)) :
    Split width fed (taken ++ [body]) rest := by
  obtain ⟨hshort, hpending⟩ := eq_frame_of_read hread
  refine ⟨?_, ?_⟩
  · rw [h.bytes, hpending, frames_append, List.append_assoc]
    simp [frames]
  · intro b hb
    cases List.mem_append.mp hb with
    | inl hb => exact h.short b hb
    | inr hb => exact List.mem_singleton.mp hb ▸ hshort

/-- From the bytes of a stream of frames only these frames are taken, in their order. -/
theorem Split.prefix (hwidth : 0 < width) (h : Split width fed taken pending)
    {bodies : List (List UInt8)} (hbodies : ∀ body ∈ bodies, body.length < 256 ^ width) (hfed : fed <+: frames width bodies) :
    ∃ later, bodies = taken ++ later ∧ pending <+: frames width later := by
  obtain ⟨hbytes, hshort⟩ := h
  induction taken generalizing fed bodies with
  | nil =>
    rw [hbytes] at hfed
    exact ⟨bodies, rfl, hfed⟩
  | cons body taken ih =>
    obtain ⟨hbody, htaken⟩ := List.forall_mem_cons.mp hshort
    obtain ⟨tail, htail⟩ := hfed
    rw [hbytes, frames_cons, List.append_assoc, List.append_assoc] at htail
    have hread := readFrame_frame hbody (frames width taken ++ (pending ++ tail))
    rw [htail] at hread
    cases bodies with
    | nil =>
      have hnone : readFrame width (frames width []) = (none, []) := readFrame_empty hwidth
      rw [hnone] at hread
      cases hread
    | cons first bodies =>
      obtain ⟨hfirst, hbodies⟩ := List.forall_mem_cons.mp hbodies
      rw [frames_cons, readFrame_frame hfirst] at hread
      obtain ⟨hsame, hrest⟩ := Prod.mk.inj hread
      obtain rfl := Option.some.inj hsame
      have hbehind : frames width taken ++ pending <+: frames width bodies :=
        ⟨tail, by rw [List.append_assoc, ← hrest]⟩
      obtain ⟨later, hlater, hpending⟩ := ih hbodies hbehind rfl htaken
      exact ⟨later, congrArg (first :: ·) hlater, hpending⟩

/-- Where no whole frame waits, every frame that lies within the bytes was taken. -/
theorem Split.complete (hwidth : 0 < width) (h : Split width fed taken pending)
    (hbodies : ∀ body ∈ bodies, body.length < 256 ^ width) (hfed : fed <+: frames width bodies)
    (hwaits : (readFrame width pending).1 = none) {front : List (List UInt8)}
    (hfront : front <+: bodies) (hwhole : (frames width front).length ≤ fed.length) :
    front <+: taken := by
  obtain ⟨later, hlater, hpending⟩ := h.prefix hwidth hbodies hfed
  obtain htaken | ⟨mid, rfl⟩ := List.prefix_or_prefix_of_prefix hfront ⟨later, hlater.symm⟩
  · exact htaken
  cases mid with
  | nil =>
    exact ⟨[], by rw [List.append_nil, List.append_nil]⟩
  | cons body mid =>
    obtain ⟨back, hback⟩ := hfront
    have hnext : later = body :: (mid ++ back) := by
      rw [← hback, List.append_assoc, List.append_cancel_left_eq] at hlater
      exact hlater.symm
    have hbody : body.length < 256 ^ width := hbodies body (by rw [hlater, hnext]; simp)
    have hlong : (frame width body).length ≤ pending.length := by
      rw [h.bytes, frames_append, frames_cons, List.length_append, List.length_append,
        List.length_append] at hwhole
      omega
    rw [hnext, frames_cons] at hpending
    obtain ⟨rest, rfl⟩ := List.prefix_of_prefix_length_le (List.prefix_append _ _) hpending hlong
    rw [readFrame_frame hbody] at hwaits
    cases hwaits

end Pieces
end PyVpn.Frames
