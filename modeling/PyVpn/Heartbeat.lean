import PyVpn.EventRun
import Mathlib.Algebra.Order.Field.Basic
import Mathlib.Tactic.Linarith

/-! Two sides that watch each other: one sends probes, the other answers each of them. Where
rounds and messages are on time, neither side is silent for long, from the moment both have
heard each other. -/
namespace PyVpn.Heartbeat
open EventRun
variable {α : Type*} [Field α] [LinearOrder α]

/-- How often the prober looks whether a probe is due, how far its rounds are apart at most,
and how long a message is under way at most. -/
structure Timing (α : Type*) [Field α] [LinearOrder α] where
  interval : α
  pause : α
  delay : α
  interval_nonneg : 0 ≤ interval
  delay_nonneg : 0 ≤ delay

/-- What time it is, what was seen last, and when the messages under way arrive at the latest.
Of the messages to the answerer those with `true` are probes. -/
structure Beat (α : Type*) where
  now : α
  lastRound : α
  lastProbe : α
  seenAnswerer : α
  seenProber : α
  probes : List (α × Bool)
  answers : List α

inductive Event (α : Type*) where
  | wait (t : α)
  | round
  | probed (i : Nat)
  | answered (i : Nat)
  /-- The answering side sends some messages of its own. -/
  | sends (count : Nat)

def step (timing : Timing α) (b : Beat α) : Event α → Beat α
  | .wait t => { b with now := t }
  | .round =>
    if timing.interval ≤ b.now - b.lastProbe then { b with
      lastRound := b.now
      lastProbe := b.now
      probes := b.probes ++ [(b.now + timing.delay, true)] }
    else { b with lastRound := b.now }
  | .probed i =>
    match b.probes[i]? with
    | none => b
    | some m => { b with
      seenAnswerer := b.now
      probes := b.probes.eraseIdx i
      answers := b.answers ++ if m.2 then [b.now + timing.delay] else [] }
  | .answered i =>
    if i < b.answers.length then { b with
      seenProber := b.now
      answers := b.answers.eraseIdx i }
    else b
  | .sends count => { b with answers := b.answers ++ List.replicate count (b.now + timing.delay) }

/-- Time passes only up to the next round and the next arrival. -/
def OnTime (timing : Timing α) (b : Beat α) : Event α → Prop
  | .wait t => b.now ≤ t ∧ t ≤ b.lastRound + timing.pause ∧ (∀ m ∈ b.probes, t ≤ m.1) ∧
      ∀ m ∈ b.answers, t ≤ m
  | _ => True

/-- Rounds are on time, and so are the messages. -/
structure Punctual (timing : Timing α) (b : Beat α) : Prop where
  roundPast : b.lastRound ≤ b.now
  roundSoon : b.now ≤ b.lastRound + timing.pause
  probesAhead : ∀ m ∈ b.probes, b.now ≤ m.1
  answersAhead : ∀ m ∈ b.answers, b.now ≤ m

/-- Both sides have been seen, and no round has come since to probe. -/
structure Starting (timing : Timing α) (b : Beat α) : Prop where
  punctual : Punctual timing b
  probePast : b.lastProbe ≤ b.lastRound
  answererPast : b.lastProbe ≤ b.seenAnswerer
  proberPast : b.lastProbe ≤ b.seenProber
  answerer : b.lastRound ≤ b.seenAnswerer + timing.interval
  prober : b.lastRound ≤ b.seenProber + timing.interval

/-- Each side has seen something since the last probe, or something is under way to it that
was sent early enough. -/
structure Alive (timing : Timing α) (b : Beat α) : Prop where
  punctual : Punctual timing b
  probePast : b.lastProbe ≤ b.lastRound
  probeSoon : b.lastRound ≤ b.lastProbe + timing.interval
  answerer : b.lastProbe ≤ b.seenAnswerer ∨
    ∃ m, (m, true) ∈ b.probes ∧ m ≤ b.seenAnswerer + timing.interval + timing.pause + timing.delay
  prober : b.lastProbe ≤ b.seenProber ∨
    (∃ m, (m, true) ∈ b.probes ∧
      m + timing.delay ≤ b.seenProber + timing.interval + timing.pause + 2 * timing.delay) ∨
    ∃ m ∈ b.answers, m ≤ b.seenProber + timing.interval + timing.pause + 2 * timing.delay

/-- Neither side is silent for long. -/
def Watching (timing : Timing α) (b : Beat α) : Prop := Starting timing b ∨ Alive timing b

section
variable {timing : Timing α} {b : Beat α}

theorem step_probed {i : Nat} {m : α × Bool} (hm : b.probes[i]? = some m) :
    step timing b (.probed i) = { b with
      seenAnswerer := b.now
      probes := b.probes.eraseIdx i
      answers := b.answers ++ if m.2 then [b.now + timing.delay] else [] } := by
  rw [step, hm]

theorem Watching.punctual (h : Watching timing b) : Punctual timing b :=
  h.elim Starting.punctual Alive.punctual

theorem Watching.wait (h : Watching timing b) {t : α} (hon : OnTime timing b (.wait t)) :
    Watching timing (step timing b (.wait t)) := by
  obtain ⟨hpast, hsoon, hprobes, hanswers⟩ := hon
  have hpunctual : Punctual timing (step timing b (.wait t)) :=
    ⟨le_trans h.punctual.roundPast hpast, hsoon, hprobes, hanswers⟩
  cases h with
  | inl h => exact .inl ⟨hpunctual, h.probePast, h.answererPast, h.proberPast, h.answerer, h.prober⟩
  | inr h => exact .inr ⟨hpunctual, h.probePast, h.probeSoon, h.answerer, h.prober⟩

variable [IsStrictOrderedRing α]

/-- How long each side can have been silent. -/
theorem Watching.silence (h : Watching timing b) :
    b.now - b.seenAnswerer ≤ timing.interval + timing.pause + timing.delay ∧
      b.now - b.seenProber ≤ timing.interval + timing.pause + 2 * timing.delay := by
  have hdelay := timing.delay_nonneg
  have hround := h.punctual.roundSoon
  cases h with
  | inl h =>
    have hanswerer := h.answerer
    have hprober := h.prober
    exact ⟨by linarith, by linarith⟩
  | inr h =>
    have hprobe := h.probeSoon
    constructor
    · obtain hseen | ⟨m, hm, hearly⟩ := h.answerer
      · linarith
      · have hahead := h.punctual.probesAhead (m, true) hm
        linarith
    · obtain hseen | ⟨m, hm, hearly⟩ | ⟨m, hm, hearly⟩ := h.prober
      · linarith
      · have hahead := h.punctual.probesAhead (m, true) hm
        linarith
      · have hahead := h.punctual.answersAhead m hm
        linarith

theorem Watching.answered (h : Watching timing b) (i : Nat) :
    Watching timing (step timing b (.answered i)) := by
  have hinterval := timing.interval_nonneg
  by_cases hi : i < b.answers.length
  · rw [step, if_pos hi]
    have hpast := h.punctual.roundPast
    have hpunctual : Punctual timing
        { b with seenProber := b.now, answers := b.answers.eraseIdx i } :=
      ⟨hpast, h.punctual.roundSoon, h.punctual.probesAhead,
        fun m hm => h.punctual.answersAhead m (List.mem_of_mem_eraseIdx hm)⟩
    cases h with
    | inl h =>
      exact .inl ⟨hpunctual, h.probePast, h.answererPast, le_trans h.probePast hpast, h.answerer,
        le_trans hpast (le_add_of_nonneg_right hinterval)⟩
    | inr h =>
      exact .inr ⟨hpunctual, h.probePast, h.probeSoon, h.answerer, .inl (le_trans h.probePast hpast)⟩
  · rw [step, if_neg hi]
    exact h

theorem Punctual.round (h : Punctual timing b) : Punctual timing (step timing b .round) := by
  have hdelay := timing.delay_nonneg
  have hpause := le_trans h.roundPast h.roundSoon
  by_cases hdue : timing.interval ≤ b.now - b.lastProbe
  · rw [step, if_pos hdue]
    refine ⟨le_refl _, by simp only; linarith, ?_, h.answersAhead⟩
    intro m hm
    cases List.mem_append.mp hm with
    | inl hm => exact h.probesAhead m hm
    | inr hm =>
      obtain rfl := List.mem_singleton.mp hm
      simp only
      linarith
  · rw [step, if_neg hdue]
    exact ⟨le_refl _, by simp only; linarith, h.probesAhead, h.answersAhead⟩

theorem Watching.round (h : Watching timing b) : Alive timing (step timing b .round) := by
  have hdelay := timing.delay_nonneg
  have hinterval := timing.interval_nonneg
  have hpast := h.punctual.roundPast
  have hsoon := h.punctual.roundSoon
  have hpunctual := h.punctual.round
  by_cases hdue : timing.interval ≤ b.now - b.lastProbe
  · rw [step, if_pos hdue] at hpunctual ⊢
    have hnew : ((b.now + timing.delay, true) : α × Bool) ∈
        b.probes ++ [(b.now + timing.delay, true)] :=
      List.mem_append_right _ (List.mem_singleton_self _)
    refine ⟨hpunctual, le_refl _, by simp only; linarith, ?_, ?_⟩
    · cases h with
      | inl h =>
        have hanswerer := h.answerer
        exact .inr ⟨_, hnew, by simp only; linarith⟩
      | inr h =>
        have hprobe := h.probeSoon
        obtain hseen | ⟨m, hm, hearly⟩ := h.answerer
        · exact .inr ⟨_, hnew, by simp only; linarith⟩
        · exact .inr ⟨m, List.mem_append_left _ hm, hearly⟩
    · cases h with
      | inl h =>
        have hprober := h.prober
        exact .inr (.inl ⟨_, hnew, by simp only; linarith⟩)
      | inr h =>
        have hprobe := h.probeSoon
        obtain hseen | ⟨m, hm, hearly⟩ | hanswer := h.prober
        · exact .inr (.inl ⟨_, hnew, by simp only; linarith⟩)
        · exact .inr (.inl ⟨m, List.mem_append_left _ hm, hearly⟩)
        · exact .inr (.inr hanswer)
  · rw [step, if_neg hdue] at hpunctual ⊢
    have hnotDue := lt_of_not_ge hdue
    cases h with
    | inl h =>
      exact ⟨hpunctual, le_trans h.probePast hpast, by simp only; linarith, .inl h.answererPast,
        .inl h.proberPast⟩
    | inr h =>
      exact ⟨hpunctual, le_trans h.probePast hpast, by simp only; linarith, h.answerer, h.prober⟩

theorem Punctual.answers (h : Punctual timing b) {answers : List α}
    (hanswers : ∀ m ∈ answers, m = b.now + timing.delay) :
    Punctual timing { b with answers := b.answers ++ answers } := by
  refine ⟨h.roundPast, h.roundSoon, h.probesAhead, ?_⟩
  intro m hm
  cases List.mem_append.mp hm with
  | inl hm => exact h.answersAhead m hm
  | inr hm =>
    rw [hanswers m hm]
    exact le_add_of_nonneg_right timing.delay_nonneg

theorem Watching.probed (h : Watching timing b) (i : Nat) :
    Watching timing (step timing b (.probed i)) := by
  have hdelay := timing.delay_nonneg
  have hinterval := timing.interval_nonneg
  cases hi : b.probes[i]? with
  | none =>
    rw [step, hi]
    exact h
  | some received =>
    rw [step_probed hi]
    have hpast := h.punctual.roundPast
    have hpunctual : Punctual timing { b with
        seenAnswerer := b.now
        probes := b.probes.eraseIdx i
        answers := b.answers ++ if received.2 then [b.now + timing.delay] else [] } := by
      refine Punctual.answers (b := { b with seenAnswerer := b.now, probes := b.probes.eraseIdx i })
        ⟨hpast, h.punctual.roundSoon, fun m hm => h.punctual.probesAhead m
          (List.mem_of_mem_eraseIdx hm), h.punctual.answersAhead⟩ ?_
      intro m hm
      split at hm
      · exact List.mem_singleton.mp hm
      · cases hm
    cases h with
    | inl h =>
      exact .inl ⟨hpunctual, h.probePast, le_trans h.probePast hpast, h.proberPast,
        le_trans hpast (le_add_of_nonneg_right hinterval), h.prober⟩
    | inr h =>
      refine .inr ⟨hpunctual, h.probePast, h.probeSoon, .inl (le_trans h.probePast hpast), ?_⟩
      obtain hseen | ⟨m, hm, hearly⟩ | ⟨m, hm, hearly⟩ := h.prober
      · exact .inl hseen
      · by_cases hsame : received = (m, true)
        · have hahead := h.punctual.probesAhead (m, true) hm
          refine .inr (.inr ⟨b.now + timing.delay, ?_, by simp only; linarith⟩)
          rw [hsame]
          exact List.mem_append_right _ (List.mem_singleton_self _)
        · -- the probe that counts is still under way
          obtain ⟨hlt, hget⟩ := List.getElem?_eq_some_iff.mp hi
          refine .inr (.inl ⟨m, ?_, hearly⟩)
          obtain ⟨j, hj, hjget⟩ := List.mem_iff_getElem.mp hm
          refine List.mem_eraseIdx_iff_getElem.mpr ⟨j, hj, ?_, hjget⟩
          rintro rfl
          exact hsame (hget.symm.trans hjget)
      · exact .inr (.inr ⟨m, List.mem_append_left _ hm, hearly⟩)

theorem Watching.sends (h : Watching timing b) (count : Nat) :
    Watching timing (step timing b (.sends count)) := by
  have hpunctual : Punctual timing (step timing b (.sends count)) :=
    h.punctual.answers fun m hm => List.eq_of_mem_replicate hm
  cases h with
  | inl h => exact .inl ⟨hpunctual, h.probePast, h.answererPast, h.proberPast, h.answerer, h.prober⟩
  | inr h =>
    refine .inr ⟨hpunctual, h.probePast, h.probeSoon, h.answerer, ?_⟩
    obtain hseen | hprobe | ⟨m, hm, hearly⟩ := h.prober
    · exact .inl hseen
    · exact .inr (.inl hprobe)
    · exact .inr (.inr ⟨m, List.mem_append_left _ hm, hearly⟩)

/-- An event that is on time keeps both sides watching. -/
theorem Watching.step (h : Watching timing b) {e : Event α} (hon : OnTime timing b e) :
    Watching timing (Heartbeat.step timing b e) := by
  cases e with
  | wait t => exact h.wait hon
  | round => exact .inr h.round
  | probed i => exact h.probed i
  | answered i => exact h.answered i
  | sends count => exact h.sends count

end
end PyVpn.Heartbeat
