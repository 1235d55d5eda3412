import PyVpn.Frames
import PyVpn.Python

/-! The messages of `protocol/tls_channel.py`: `send` and `recv` of a `TLSControlChannel`
over a socket that hands the stream out in any pieces and may fail at any time. -/
namespace PyVpn
open BigEndian

def headerStructSize : Nat := 4

/-- What the socket does at one `recv` call: it hands out at most this many bytes, but one
at least while there are any, or raises `OSError`. -/
inductive SocketAnswer where
  | chunk (size : Nat)
  | failure
  deriving DecidableEq

/-- The two directions of an `ssl.SSLSocket`. The peer has closed it behind the pending
bytes; `recvs` counts the `recv` calls, each of which has an answer of its own. -/
structure SslSocket where
  sent : Bytes
  pending : Bytes
  answers : Nat → SocketAnswer
  recvs : Nat

namespace SslSocket

def sendall (data : Bytes) : Py SslSocket Unit :=
  Py.assign fun sock => { sock with sent := sock.sent ++ data }

def recv (n : Nat) : Py SslSocket Bytes := fun sock =>
  match sock.answers sock.recvs with
  | .failure => (.error .osError, { sock with recvs := sock.recvs + 1 })
  | .chunk size =>
    let k := min (min n (max 1 size)) sock.pending.length
    (.ok (sock.pending.take k),
      { sock with pending := sock.pending.drop k, recvs := sock.recvs + 1 })

theorem recv_cases {n : Nat} (hn : 0 < n) (sock : SslSocket) :
    (sock.answers sock.recvs = .failure ∧
      recv n sock = (.error .osError, { sock with recvs := sock.recvs + 1 })) ∨
    (sock.pending = [] ∧ recv n sock = (.ok [], { sock with recvs := sock.recvs + 1 })) ∨
    ∃ size, sock.answers sock.recvs ≠ .failure ∧ 0 < size ∧ size ≤ n ∧
      size ≤ sock.pending.length ∧
      recv n sock = (.ok (sock.pending.take size),
        { sock with pending := sock.pending.drop size, recvs := sock.recvs + 1 }) := by
  unfold recv
  cases hanswer : sock.answers sock.recvs with
  | failure => exact .inl ⟨rfl, rfl⟩
  | chunk size =>
    refine .inr ?_
    by_cases hempty : sock.pending = []
    · exact .inl ⟨hempty, by simp [hempty]⟩
    · have hpos := List.length_pos_iff.mpr hempty
      exact .inr ⟨min (min n (max 1 size)) sock.pending.length, by simp, by omega, by omega,
        by omega, rfl⟩

def Over (sock : SslSocket) : Prop :=
  sock.pending = [] ∨ ∀ t, sock.recvs ≤ t → sock.answers t = .failure

end SslSocket

namespace TlsControlChannel

def send (data : Bytes) : Py SslSocket Unit := do
  let header ← Py.ofExcept (pack headerStructSize data.length)
  SslSocket.sendall (header ++ data)

/-- The loop of `_recv_exact`. It ends because a chunk that goes on is not empty. -/
def recvExactLoop (n : Nat) (buf : Bytes) : Py SslSocket Bytes := fun sock =>
  if _h : buf.length < n then
    match SslSocket.recv (n - buf.length) sock with
    | (.error _, sock') => (.error .tlsChannelError, sock')
    | (.ok [], sock') => (.error .tlsChannelError, sock')
    | (.ok (b :: chunk), sock') => recvExactLoop n (buf ++ b :: chunk) sock'
  else (.ok buf, sock)
termination_by n - buf.length
decreasing_by
  rw [List.length_append, List.length_cons]
  omega

def recvExact (n : Nat) : Py SslSocket Bytes := recvExactLoop n []

def recv : Py SslSocket Bytes := do
  let header ← recvExact headerStructSize
  let length ← Py.ofExcept (unpack headerStructSize header)
  recvExact length

def afterRecvs (calls : Nat) (sock : SslSocket) : SslSocket :=
  (fun sock => (recv sock).2)^[calls] sock

def Quiet (sock : SslSocket) (recvs : Nat) : Prop :=
  ∀ t, sock.recvs ≤ t → t < recvs → sock.answers t ≠ .failure

/-- How asking a socket for `n` bytes can end. -/
inductive Reads (n : Nat) (sock : SslSocket) : Except PyError Bytes × SslSocket → Prop
  | whole (recvs : Nat) (hlength : n ≤ sock.pending.length)
      (hrecvs : sock.recvs ≤ recvs ∧ recvs ≤ sock.recvs + n) (hquiet : Quiet sock recvs) :
      Reads n sock (.ok (sock.pending.take n),
        { sock with pending := sock.pending.drop n, recvs := recvs })
  | closed (recvs : Nat) (hlength : sock.pending.length < n) (hrecvs : sock.recvs ≤ recvs) :
      Reads n sock (.error .tlsChannelError, { sock with pending := [], recvs := recvs })
  | failed (taken recvs : Nat) (hrecvs : sock.recvs ≤ recvs)
      (hanswer : sock.answers recvs = .failure) :
      Reads n sock (.error .tlsChannelError,
        { sock with pending := sock.pending.drop taken, recvs := recvs + 1 })

section
variable {n k : Nat} {sock : SslSocket}

theorem Reads.prepend {out : Except PyError Bytes × SslSocket} {size : Nat}
    (hanswer : sock.answers sock.recvs ≠ .failure) (hpos : 0 < size) (hsize : size ≤ n)
    (hpending : size ≤ sock.pending.length)
    (h : Reads (n - size)
      { sock with pending := sock.pending.drop size, recvs := sock.recvs + 1 } out) :
    Reads n sock (out.1.map (sock.pending.take size ++ ·), out.2) := by
  cases h with
  | whole recvs hlength hrecvs hquiet =>
    have hbytes : sock.pending.take size ++ (sock.pending.drop size).take (n - size) =
        sock.pending.take n := by
      rw [← List.take_add, Nat.add_sub_cancel' hsize]
    have hrest : (sock.pending.drop size).drop (n - size) = sock.pending.drop n := by
      rw [List.drop_drop, Nat.add_sub_cancel' hsize]
    simp only [Except.map, hbytes, hrest]
    simp only [List.length_drop] at hlength hrecvs
    refine .whole recvs (by omega) (by omega) ?_
    intro t hfrom hto
    by_cases hnow : t = sock.recvs
    · exact hnow ▸ hanswer
    · exact hquiet t (by simp only; omega) hto
  | closed recvs hlength hrecvs =>
    simp only [List.length_drop] at hlength hrecvs
    exact .closed recvs (by omega) (by omega)
  | failed taken recvs hrecvs hfailed =>
    simp only [List.drop_drop]
    simp only at hrecvs
    exact .failed (size + taken) recvs (by omega) hfailed

theorem recvExactLoop_reads (n : Nat) (buf : Bytes) (h : buf.length ≤ n) (sock : SslSocket) :
    ∃ out, Reads (n - buf.length) sock out ∧
      recvExactLoop n buf sock = (out.1.map (buf ++ ·), out.2) := by
  induction hmissing : n - buf.length using Nat.strong_induction_on generalizing buf sock with
  | h missing ih =>
    rw [recvExactLoop]
    by_cases hfull : buf.length < n
    · have hmore : 0 < missing := by omega
      rw [dif_pos hfull, hmissing]
      obtain ⟨hanswer, hrecv⟩ | ⟨hempty, hrecv⟩ | ⟨size, hanswer, hpos, hsize, hpending, hrecv⟩ :=
        SslSocket.recv_cases hmore sock
      · rw [hrecv]
        exact ⟨_, .failed 0 sock.recvs (Nat.le_refl _) hanswer, rfl⟩
      · have hclosed : sock.pending.length < missing := by
          rw [hempty, List.length_nil]
          omega
        have hrest : { sock with recvs := sock.recvs + 1 } =
            { sock with pending := [], recvs := sock.recvs + 1 } := by rw [← hempty]
        refine ⟨_, .closed (sock.recvs + 1) hclosed (Nat.le_succ _), ?_⟩
        rw [hrecv, hrest]
        rfl
      · have hlength : (sock.pending.take size).length = size := by
          rw [List.length_take]
          omega
        have hbuf : (buf ++ sock.pending.take size).length = buf.length + size := by
          rw [List.length_append, hlength]
        obtain ⟨out, hreads, hrun⟩ := ih (missing - size) (by omega)
          (buf ++ sock.pending.take size) (by omega)
          { sock with pending := sock.pending.drop size, recvs := sock.recvs + 1 } (by omega)
        refine ⟨_, Reads.prepend hanswer hpos hsize hpending hreads, ?_⟩
        rw [hrecv]
        cases hchunk : sock.pending.take size with
        | nil =>
          rw [hchunk, List.length_nil] at hlength
          exact absurd hlength (Nat.ne_of_lt hpos)
        | cons b chunk =>
          simp only
          rw [← hchunk, hrun]
          cases out.1 with
          | error e => rfl
          | ok rest => simp [Except.map]
    · have hzero : missing = 0 := by omega
      subst hzero
      rw [dif_neg hfull]
      refine ⟨_, .whole sock.recvs (Nat.zero_le _) ⟨Nat.le_refl _, Nat.le_refl _⟩ ?_, ?_⟩
      · intro t hfrom hto
        exact absurd hto (Nat.not_lt.mpr hfrom)
      · simp [Except.map]

theorem recvExact_reads (n : Nat) (sock : SslSocket) : Reads n sock (recvExact n sock) := by
  obtain ⟨out, hreads, hrun⟩ := recvExactLoop_reads n [] (Nat.zero_le n) sock
  have hsame : (out.1.map ([] ++ ·), out.2) = out := by
    cases out with
    | mk r sock' => cases r <;> rfl
  rw [recvExact, hrun, hsame]
  exact hreads

theorem recv_failing (h : sock.answers sock.recvs = .failure) :
    recv sock = (.error .tlsChannelError, { sock with recvs := sock.recvs + 1 }) := by
  have hread : recvExact headerStructSize sock =
      (.error .tlsChannelError, { sock with recvs := sock.recvs + 1 }) := by
    rw [recvExact, recvExactLoop, dif_pos (by decide)]
    simp only [SslSocket.recv, h]
  rw [recv, Py.bind_run, hread]

end

/-- How a `recv` of the channel can end: with the next frame of the stream, at its end, or
with a failure of the socket. -/
inductive Receives (sock : SslSocket) : Except PyError Bytes × SslSocket → Prop
  | message (body rest : Bytes) (recvs : Nat)
      (hframe : Frames.readFrame headerStructSize sock.pending = (some body, rest))
      (hrecvs : sock.recvs ≤ recvs ∧ recvs ≤ sock.recvs + (headerStructSize + body.length))
      (hquiet : Quiet sock recvs) :
      Receives sock (.ok body, { sock with pending := rest, recvs := recvs })
  | closed (recvs : Nat) (hframe : Frames.readFrame headerStructSize sock.pending = (none, []))
      (hrecvs : sock.recvs ≤ recvs) :
      Receives sock (.error .tlsChannelError, { sock with pending := [], recvs := recvs })
  | failed (taken recvs : Nat) (hrecvs : sock.recvs ≤ recvs)
      (hanswer : sock.answers recvs = .failure) :
      Receives sock (.error .tlsChannelError,
        { sock with pending := sock.pending.drop taken, recvs := recvs + 1 })

theorem recv_receives (sock : SslSocket) : Receives sock (recv sock) := by
  unfold recv
  rw [Py.bind_run]
  have hheader := recvExact_reads headerStructSize sock
  generalize recvExact headerStructSize sock = out at hheader
  cases hheader with
  | closed recvs hlength hrecvs =>
    refine .closed recvs ?_ hrecvs
    rw [Frames.readFrame, Frames.readExactly_short hlength]
  | failed taken recvs hrecvs hanswer => exact .failed taken recvs hrecvs hanswer
  | whole recvs hlength hrecvs hquiet =>
    have hfour : (sock.pending.take headerStructSize).length = headerStructSize := by
      rw [List.length_take, Nat.min_eq_left hlength]
    have hunpack : unpack headerStructSize (sock.pending.take headerStructSize) =
        .ok (ofBe (sock.pending.take headerStructSize)) := if_pos hfour
    have hread : Frames.readExactly headerStructSize sock.pending =
        (some (sock.pending.take headerStructSize), sock.pending.drop headerStructSize) :=
      if_pos hlength
    have hframe : Frames.readFrame headerStructSize sock.pending =
        Frames.readExactly (ofBe (sock.pending.take headerStructSize))
          (sock.pending.drop headerStructSize) := by
      rw [Frames.readFrame, hread]
    simp only [Py.bind_run, hunpack, Py.ofExcept_run]
    generalize ofBe (sock.pending.take headerStructSize) = length at hframe
    have hbody := recvExact_reads length
      { sock with pending := sock.pending.drop headerStructSize, recvs := recvs }
    generalize recvExact length
      { sock with pending := sock.pending.drop headerStructSize, recvs := recvs } = out at hbody
    cases hbody with
    | whole recvs' hlength' hrecvs' hquiet' =>
      simp only at hlength' hrecvs'
      have hlong : ((sock.pending.drop headerStructSize).take length).length = length := by
        rw [List.length_take, Nat.min_eq_left hlength']
      refine .message _ _ recvs' (hframe.trans (if_pos hlength')) ?_ ?_
      · rw [hlong]
        omega
      · intro t hfrom hto
        by_cases hearly : t < recvs
        · exact hquiet t hfrom hearly
        · exact hquiet' t (Nat.le_of_not_lt hearly) hto
    | closed recvs' hlength' hrecvs' =>
      simp only at hrecvs'
      exact .closed recvs' (hframe.trans (Frames.readExactly_short hlength')) (by omega)
    | failed taken recvs' hrecvs' hanswer =>
      simp only [List.drop_drop]
      simp only at hrecvs'
      exact .failed (headerStructSize + taken) recvs' (by omega) hanswer

/-! Successive calls. -/

section
variable {calls good : Nat} {messages : List Bytes} {sock : SslSocket}

theorem afterRecvs_succ (calls : Nat) (sock : SslSocket) :
    afterRecvs (calls + 1) sock = (recv (afterRecvs calls sock)).2 :=
  Function.iterate_succ_apply' _ _ _

/-- A call that returns has read the next frame, and no failure came in between. -/
theorem recv_ok {body : Bytes} (h : (recv sock).1 = .ok body) :
    Frames.readFrame headerStructSize sock.pending = (some body, (recv sock).2.pending) ∧
      (recv sock).2.recvs ≤ sock.recvs + (headerStructSize + body.length) ∧
      Quiet sock (recv sock).2.recvs := by
  have hreceives := recv_receives sock
  generalize recv sock = out at hreceives h
  cases hreceives with
  | message body' rest recvs hframe hrecvs hquiet =>
    cases h
    exact ⟨hframe, hrecvs.2, hquiet⟩
  | closed recvs hframe hrecvs => cases h
  | failed taken recvs hrecvs hanswer => cases h

theorem recv_error (h : ∀ body, (recv sock).1 ≠ .ok body) :
    (recv sock).1 = .error .tlsChannelError := by
  have hreceives := recv_receives sock
  generalize recv sock = out at hreceives h
  cases hreceives with
  | message body rest recvs hframe hrecvs hquiet => exact absurd rfl (h body)
  | closed recvs hframe hrecvs => rfl
  | failed taken recvs hrecvs hanswer => rfl

theorem afterRecvs_pending
    (h : ∀ i < calls, ∃ body, (recv (afterRecvs i sock)).1 = .ok body) :
    (afterRecvs calls sock).pending =
      Frames.afterReads headerStructSize calls sock.pending := by
  induction calls with
  | zero => rfl
  | succ calls ih =>
    obtain ⟨body, hbody⟩ := h calls (Nat.lt_succ_self calls)
    have hpending := ih fun i hi => h i (Nat.lt_succ_of_lt hi)
    have hframe := (recv_ok hbody).1
    rw [hpending] at hframe
    rw [afterRecvs_succ, Frames.afterReads, Function.iterate_succ_apply', ← Frames.afterReads,
      hframe]

theorem recv_answers (sock : SslSocket) : (recv sock).2.answers = sock.answers := by
  have hreceives := recv_receives sock
  generalize recv sock = out at hreceives
  cases hreceives <;> rfl

theorem afterRecvs_answers (calls : Nat) (sock : SslSocket) :
    (afterRecvs calls sock).answers = sock.answers := by
  induction calls with
  | zero => rfl
  | succ calls ih => rw [afterRecvs_succ, recv_answers, ih]

/-- A call that does not return although no `recv` of the socket failed met the end of the
stream in its frame. -/
theorem recv_closed (h : ∀ body, (recv sock).1 ≠ .ok body) (hquiet : Quiet sock (recv sock).2.recvs) :
    (Frames.readFrame headerStructSize sock.pending).1 = none := by
  have hreceives := recv_receives sock
  generalize recv sock = out at hreceives h hquiet
  cases hreceives with
  | message body rest recvs hframe hrecvs hquiet => exact absurd rfl (h body)
  | closed recvs hframe hrecvs => rw [hframe]
  | failed taken recvs hrecvs hanswer =>
    exact absurd hanswer (hquiet recvs hrecvs (Nat.lt_succ_self recvs))

/-- An error of the socket is the end of its stream. -/
def FinalFailures (answers : Nat → SocketAnswer) : Prop :=
  ∀ t, answers t = .failure → answers (t + 1) = .failure

theorem recv_over (h : sock.Over) :
    (recv sock).1 = .error .tlsChannelError ∧ (recv sock).2.Over := by
  cases h with
  | inl hempty =>
    have hreceives := recv_receives sock
    generalize recv sock = out at hreceives
    cases hreceives with
    | message body rest recvs hframe hrecvs hquiet =>
      rw [hempty, Frames.readFrame_empty (by decide)] at hframe
      cases hframe
    | closed recvs hframe hrecvs => exact ⟨rfl, .inl rfl⟩
    | failed taken recvs hrecvs hanswer => exact ⟨rfl, .inl (by simp [hempty])⟩
  | inr hfails =>
    rw [recv_failing (hfails sock.recvs (Nat.le_refl _))]
    exact ⟨rfl, .inr fun t ht => hfails t (Nat.le_of_succ_le ht)⟩

theorem afterRecvs_over (h : sock.Over) (calls : Nat) :
    (afterRecvs calls sock).Over := by
  induction calls with
  | zero => exact h
  | succ calls ih =>
    rw [afterRecvs_succ]
    exact (recv_over ih).2

/-- Where failures are final, a call that raises is the last one that could return. -/
theorem over_of_raises (hfinal : FinalFailures sock.answers)
    (h : ∀ body, (recv sock).1 ≠ .ok body) : (recv sock).2.Over := by
  have hreceives := recv_receives sock
  generalize recv sock = out at hreceives h
  cases hreceives with
  | message body rest recvs hframe hrecvs hquiet => exact absurd rfl (h body)
  | closed recvs hframe hrecvs => exact .inl rfl
  | failed taken recvs hrecvs hanswer =>
    refine .inr ?_
    intro t ht
    induction t, ht using Nat.le_induction with
    | base => exact hfinal recvs hanswer
    | succ t ht ih => exact hfinal t ih

/-- What `recv` does on a stream of framed messages: it returns the first `good` ones, each
without a byte of the next, and then raises. -/
structure Delivers (messages : List Bytes) (sock : SslSocket) (good : Nat) : Prop where
  returned : ∀ i < good, ∃ message, messages[i]? = some message ∧
    (recv (afterRecvs i sock)).1 = .ok message ∧
    (afterRecvs (i + 1) sock).recvs ≤
      (afterRecvs i sock).recvs + (headerStructSize + message.length)
  consumed : ∀ i ≤ good, (afterRecvs i sock).pending =
    sock.pending.drop (Frames.frames headerStructSize (messages.take i)).length
  raised : (recv (afterRecvs good sock)).1 = .error .tlsChannelError
  /-- Without a failure of the socket all messages come whose frames are in the stream. -/
  whole : Quiet (afterRecvs good sock) (afterRecvs (good + 1) sock).recvs →
    good < messages.length →
      sock.pending.length < (Frames.frames headerStructSize (messages.take (good + 1))).length
  ended : FinalFailures sock.answers → ∀ i, good ≤ i →
    (recv (afterRecvs i sock)).1 = .error .tlsChannelError

/-- The calls before this one return, and this one does not. -/
def FirstRaise (sock : SslSocket) (good : Nat) : Prop :=
  (∀ i < good, ∃ body, (recv (afterRecvs i sock)).1 = .ok body) ∧
    ∀ body, (recv (afterRecvs good sock)).1 ≠ .ok body

theorem FirstRaise.ended (h : FirstRaise sock good) (hfinal : FinalFailures sock.answers) {i : Nat}
    (hi : good ≤ i) : (recv (afterRecvs i sock)).1 = .error .tlsChannelError := by
  by_cases hfirst : i = good
  · exact hfirst ▸ recv_error h.2
  · have hover : (afterRecvs (good + 1) sock).Over := by
      rw [afterRecvs_succ]
      exact over_of_raises (by rwa [afterRecvs_answers]) h.2
    obtain ⟨later, rfl⟩ := Nat.exists_eq_add_of_le (by omega : good + 1 ≤ i)
    have hlater : afterRecvs (good + 1 + later) sock =
        afterRecvs later (afterRecvs (good + 1) sock) := by
      rw [Nat.add_comm, afterRecvs, Function.iterate_add_apply]
      rfl
    rw [hlater]
    exact (recv_over (afterRecvs_over hover later)).1

/-- Framed messages are pending, up to some byte. -/
def Framed (messages : List Bytes) (cut : Nat) (sock : SslSocket) : Prop :=
  (∀ message ∈ messages, message.length < 2 ^ 32) ∧
    sock.pending = (Frames.frames headerStructSize messages).take cut

variable {cut : Nat}

theorem Framed.next (h : Framed messages cut sock)
    (hbefore : ∀ i < calls, ∃ body, (recv (afterRecvs i sock)).1 = .ok body) :
    (Frames.readFrame headerStructSize (afterRecvs calls sock).pending).1 =
      if (Frames.frames headerStructSize (messages.take (calls + 1))).length ≤ cut
        then messages[calls]? else none := by
  rw [afterRecvs_pending hbefore, h.2]
  exact Frames.read_cut (by decide) h.1 cut calls

theorem Framed.returned {body : Bytes} (h : Framed messages cut sock)
    (hbefore : ∀ i < calls, ∃ body, (recv (afterRecvs i sock)).1 = .ok body)
    (hbody : (recv (afterRecvs calls sock)).1 = .ok body) :
    (Frames.frames headerStructSize (messages.take (calls + 1))).length ≤ cut ∧
      messages[calls]? = some body := by
  have hframe := congrArg Prod.fst (recv_ok hbody).1
  rw [h.next hbefore] at hframe
  split at hframe
  · exact ⟨‹_›, hframe⟩
  · cases hframe

theorem Framed.returned_whole (h : Framed messages cut sock) (hraise : FirstRaise sock good)
    {i : Nat} (hi : i ≤ good) :
    i ≤ messages.length ∧
      (Frames.frames headerStructSize (messages.take i)).length ≤ cut := by
  cases i with
  | zero => exact ⟨Nat.zero_le _, Nat.zero_le _⟩
  | succ i =>
    obtain ⟨body, hbody⟩ := hraise.1 i hi
    obtain ⟨hcut, hmessage⟩ := h.returned (fun j hj => hraise.1 j (Nat.lt_trans hj hi)) hbody
    exact ⟨(List.getElem?_eq_some_iff.mp hmessage).1, hcut⟩

theorem Framed.delivers (h : Framed messages cut sock) (hraise : FirstRaise sock good) :
    Delivers messages sock good where
  returned := by
    intro i hi
    obtain ⟨body, hbody⟩ := hraise.1 i hi
    obtain ⟨-, hmessage⟩ := h.returned (fun j hj => hraise.1 j (Nat.lt_trans hj hi)) hbody
    refine ⟨body, hmessage, hbody, ?_⟩
    rw [afterRecvs_succ]
    exact (recv_ok hbody).2.1
  consumed := by
    intro i hi
    obtain ⟨hle, hcut⟩ := h.returned_whole hraise hi
    rw [afterRecvs_pending fun j hj => hraise.1 j (Nat.lt_of_lt_of_le hj hi), h.2]
    exact Frames.afterReads_whole h.1 hle hcut
  raised := recv_error hraise.2
  whole := by
    intro hquiet hmore
    rw [afterRecvs_succ] at hquiet
    have hnone := recv_closed hraise.2 hquiet
    rw [h.next hraise.1] at hnone
    split at hnone
    · rw [List.getElem?_eq_getElem hmore] at hnone
      cases hnone
    · rename_i hcut
      rw [h.2, List.length_take]
      omega
  ended := fun hfinal _ hi => hraise.ended hfinal hi

theorem recv_recvs (sock : SslSocket) : sock.recvs ≤ (recv sock).2.recvs := by
  have hreceives := recv_receives sock
  generalize recv sock = out at hreceives
  cases hreceives with
  | message body rest recvs hframe hrecvs hquiet => exact hrecvs.1
  | closed recvs hframe hrecvs => exact hrecvs
  | failed taken recvs hrecvs hanswer => exact Nat.le_succ_of_le hrecvs

theorem afterRecvs_recvs (sock : SslSocket) : Monotone fun calls => (afterRecvs calls sock).recvs := by
  refine monotone_nat_of_le_succ ?_
  intro calls
  rw [afterRecvs_succ]
  exact recv_recvs _

theorem Delivers.all (h : Delivers messages sock good) (hgood : good ≤ messages.length)
    (hpending : sock.pending = Frames.frames headerStructSize messages)
    (hquiet : Quiet sock (afterRecvs (messages.length + 1) sock).recvs) :
    good = messages.length := by
  refine Nat.le_antisymm hgood (Nat.le_of_not_lt ?_)
  intro hmore
  have hcalls : Quiet (afterRecvs good sock) (afterRecvs (good + 1) sock).recvs := by
    intro t hfrom hto
    rw [afterRecvs_answers]
    exact hquiet t (Nat.le_trans (afterRecvs_recvs sock (Nat.zero_le good)) hfrom)
      (Nat.lt_of_lt_of_le hto (afterRecvs_recvs sock (Nat.succ_le_succ hgood)))
  have hshort := h.whole hcalls hmore
  have hprefix := Frames.frames_append headerStructSize (messages.take (good + 1))
    (messages.drop (good + 1))
  rw [List.take_append_drop] at hprefix
  rw [hpending, hprefix, List.length_append] at hshort
  omega

end

end TlsControlChannel
end PyVpn
