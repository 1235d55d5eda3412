import Mathlib.Data.List.Basic
import Mathlib.Data.List.Induction
import Mathlib.Logic.Function.Basic

/-! Runs of a deterministic step function over finite event lists. Every choice
of the environment (payloads, clocks, random draws) is part of the event, so a
law for all runs is a law for all event lists. -/
namespace PyVpn.EventRun
variable {σ ε : Type*}

def run (step : σ → ε → σ) : List ε → σ → σ
  | [], s => s
  | e :: es, s => run step es (step s e)

@[simp] theorem run_nil (step : σ → ε → σ) (s : σ) : run step [] s = s := rfl

@[simp] theorem run_cons (step : σ → ε → σ) (e : ε) (es : List ε) (s : σ) :
    run step (e :: es) s = run step es (step s e) := rfl

theorem run_append (step : σ → ε → σ) (u v : List ε) (s : σ) :
    run step (u ++ v) s = run step v (run step u s) := by
  induction u generalizing s with
  | nil => rfl
  | cons e u ih => exact ih (step s e)

theorem run_concat (step : σ → ε → σ) (u : List ε) (e : ε) (s : σ) :
    run step (u ++ [e]) s = step (run step u s) e := by
  rw [run_append]; rfl

/-- Every step of the run meets a condition on its event and the state before it. -/
def Meets (step : σ → ε → σ) (ok : σ → ε → Prop) : List ε → σ → Prop
  | [], _ => True
  | e :: es, s => ok s e ∧ Meets step ok es (step s e)

theorem meets_append (step : σ → ε → σ) (ok : σ → ε → Prop) (u v : List ε) (s : σ) :
    Meets step ok (u ++ v) s ↔ Meets step ok u s ∧ Meets step ok v (run step u s) := by
  induction u generalizing s with
  | nil => simp [Meets]
  | cons e u ih => simp only [List.cons_append, Meets, ih, run_cons, and_assoc]

theorem meets_iff_split (step : σ → ε → σ) (ok : σ → ε → Prop) (es : List ε) (s : σ) :
    Meets step ok es s ↔ ∀ u e v, es = u ++ e :: v → ok (run step u s) e := by
  constructor
  · intro h u e v hsplit
    subst hsplit
    exact ((meets_append step ok u (e :: v) s).mp h).2.1
  · intro h
    induction es generalizing s with
    | nil => trivial
    | cons e es ih =>
      refine ⟨h [] e es rfl, ih (step s e) ?_⟩
      intro u f v hsplit
      subst hsplit
      exact h (e :: u) f v rfl

/-- Invariant rule: what every admitted step keeps, every admitted run keeps. -/
theorem inv_run {step : σ → ε → σ} {ok : σ → ε → Prop} {I : σ → Prop}
    (hstep : ∀ s e, I s → ok s e → I (step s e)) (es : List ε) (s : σ)
    (h : I s) (hok : Meets step ok es s) : I (run step es s) := by
  induction es generalizing s with
  | nil => exact h
  | cons e es ih => exact ih (step s e) (hstep s e h hok.1) hok.2

theorem inv_run_always {step : σ → ε → σ} {I : σ → Prop}
    (hstep : ∀ s e, I s → I (step s e)) (es : List ε) (s : σ) (h : I s) :
    I (run step es s) := by
  induction es generalizing s with
  | nil => exact h
  | cons e es ih => exact ih (step s e) (hstep s e h)

/-- Invariant rule for laws that also speak of the events so far. -/
theorem history_run {step : σ → ε → σ} {ok : σ → ε → Prop} {s₀ : σ}
    {I : List ε → σ → Prop} (h₀ : I [] s₀)
    (hstep : ∀ u e, I u (run step u s₀) → ok (run step u s₀) e →
      I (u ++ [e]) (step (run step u s₀) e))
    (es : List ε) (hok : Meets step ok es s₀) : I es (run step es s₀) := by
  induction es using List.reverseRecOn with
  | nil => exact h₀
  | append_singleton u e ih =>
    obtain ⟨hu, he⟩ := (meets_append step ok u [e] s₀).mp hok
    rw [run_concat]
    exact hstep u e (ih hu) he.1

theorem history_run_always {step : σ → ε → σ} {s₀ : σ} {I : List ε → σ → Prop} (h₀ : I [] s₀)
    (hstep : ∀ u e, I u (run step u s₀) → I (u ++ [e]) (step (run step u s₀) e)) (es : List ε) :
    I es (run step es s₀) := by
  induction es using List.reverseRecOn with
  | nil => exact h₀
  | append_singleton u e ih =>
    rw [run_concat]
    exact hstep u e ih

/-- A step has a property and keeps the invariant exactly under a condition; then the steps
of a run have it, and all its states the invariant, exactly where each step meets the condition. -/
theorem meets_always_iff {step : σ → ε → σ} {T ok : σ → ε → Prop} {I J : σ → Prop}
    (hJ : ∀ s e, J s → J (step s e))
    (hstep : ∀ s e, J s → I s → (T s e ∧ I (step s e) ↔ ok s e))
    (es : List ε) {s : σ} (hj : J s) (h : I s) :
    (Meets step T es s ∧ ∀ before later, es = before ++ later → I (run step before s)) ↔
      Meets step ok es s := by
  induction es generalizing s with
  | nil =>
    refine iff_of_true ⟨trivial, ?_⟩ trivial
    intro before later hsplit
    obtain ⟨rfl, -⟩ := List.append_eq_nil_iff.mp hsplit.symm
    exact h
  | cons e es ih =>
    constructor
    · intro hall
      have hnext : I (step s e) := hall.2 [e] es rfl
      refine ⟨(hstep s e hj h).mp ⟨hall.1.1, hnext⟩, (ih (hJ s e hj) hnext).mp ⟨hall.1.2, ?_⟩⟩
      intro before later hsplit
      subst hsplit
      exact hall.2 (e :: before) later rfl
    · intro hok
      obtain ⟨hfirst, hnext⟩ := (hstep s e hj h).mpr hok.1
      obtain ⟨hsteps, hstates⟩ := (ih (hJ s e hj) hnext).mpr hok.2
      refine ⟨⟨hfirst, hsteps⟩, ?_⟩
      intro before later hsplit
      cases before with
      | nil => exact h
      | cons f before =>
        obtain ⟨rfl, hrest⟩ := List.cons.inj hsplit
        exact hstates before later hrest

theorem always_iff_meets {step : σ → ε → σ} {ok : σ → ε → Prop} {I J : σ → Prop}
    (hJ : ∀ s e, J s → J (step s e)) (hstep : ∀ s e, J s → I s → (I (step s e) ↔ ok s e))
    (es : List ε) {s : σ} (hj : J s) (h : I s) :
    (∀ before later, es = before ++ later → I (run step before s)) ↔ Meets step ok es s := by
  have hsteps : Meets step (fun _ _ => True) es s :=
    (meets_iff_split step _ es s).mpr fun _ _ _ _ => trivial
  have hboth : ∀ s e, J s → I s → (True ∧ I (step s e) ↔ ok s e) := fun s e hj h =>
    (and_iff_right trivial).trans (hstep s e hj h)
  exact (and_iff_right hsteps).symm.trans (meets_always_iff hJ hboth es hj h)

def outputs {ρ : Type*} (act : ε → σ → ρ × σ) : List ε → σ → List (ε × ρ)
  | [], _ => []
  | e :: es, s => (e, (act e s).1) :: outputs act es (act e s).2

theorem outputs_split {ρ : Type*} {act : ε → σ → ρ × σ} {es : List ε} {s : σ}
    {before after : List (ε × ρ)} (h : outputs act es s = before ++ after) :
    ∃ u v, outputs act u s = before ∧
      outputs act v (run (fun s e => (act e s).2) u s) = after := by
  induction before generalizing es s with
  | nil => exact ⟨[], es, rfl, h⟩
  | cons r before ih =>
    cases es with
    | nil => cases h
    | cons e es =>
      obtain ⟨rfl, hrest⟩ := List.cons.inj h
      obtain ⟨u, v, hu, hv⟩ := ih hrest
      exact ⟨e :: u, v, congrArg _ hu, hv⟩

theorem outputs_filter {ρ : Type*} (act : ε → σ → ρ × σ) (keep : ε → Bool) (es : List ε) (s : σ)
    (h : Meets (fun s e => (act e s).2) (fun s e => keep e = false → (act e s).2 = s) es s) :
    (outputs act es s).filter (fun r => keep r.1) = outputs act (es.filter keep) s := by
  induction es generalizing s with
  | nil => rfl
  | cons e es ih =>
    have htail := ih (act e s).2 h.2
    cases he : keep e with
    | false =>
      rw [h.1 he] at htail
      simp only [outputs, List.filter_cons, he, h.1 he, Bool.false_eq_true, if_false]
      exact htail
    | true =>
      simp only [outputs, List.filter_cons, he, if_true]
      rw [htail]

section Simulation
variable {τ ε' ρ ρ' : Type*} {act : ε → σ → ρ × σ} {act' : ε' → τ → ρ' × τ}
  {tr : σ → ε → ε'} {R : σ → τ → Prop}

/-- The events of the abstract run that follows a concrete one. -/
def translate (act : ε → σ → ρ × σ) (tr : σ → ε → ε') : List ε → σ → List ε'
  | [], _ => []
  | e :: es, s => tr s e :: translate act tr es (act e s).2

theorem translate_append (u v : List ε) (s : σ) :
    translate act tr (u ++ v) s =
      translate act tr u s ++ translate act tr v (run (fun s e => (act e s).2) u s) := by
  induction u generalizing s with
  | nil => rfl
  | cons e u ih => simp only [List.cons_append, translate, run_cons, ih]

/-- Forward simulation: related states stay related along the two runs. -/
theorem simulate_run (hstep : ∀ s t e, R s t → R (act e s).2 (act' (tr s e) t).2)
    (es : List ε) {s : σ} {t : τ} (h : R s t) :
    R (run (fun s e => (act e s).2) es s)
      (run (fun t e => (act' e t).2) (translate act tr es s) t) := by
  induction es generalizing s t with
  | nil => exact h
  | cons e es ih => exact ih (hstep s t e h)

theorem simulate_outputs {Q : ε × ρ → ρ' → Prop}
    (hstep : ∀ s t e, R s t → R (act e s).2 (act' (tr s e) t).2)
    (hout : ∀ s t e, R s t → Q (e, (act e s).1) (act' (tr s e) t).1)
    (es : List ε) {s : σ} {t : τ} (h : R s t) :
    List.Forall₂ (fun r r' => Q r r'.2) (outputs act es s)
      (outputs act' (translate act tr es s) t) := by
  induction es generalizing s t with
  | nil => exact .nil
  | cons e es ih => exact .cons (hout s t e h) (ih (hstep s t e h))

theorem simulate_meets {ok : σ → ε → Prop} {ok' : τ → ε' → Prop}
    (hstep : ∀ s t e, R s t → R (act e s).2 (act' (tr s e) t).2)
    (hok : ∀ s t e, R s t → ok s e → ok' t (tr s e))
    (es : List ε) {s : σ} {t : τ} (h : R s t)
    (hmeets : Meets (fun s e => (act e s).2) ok es s) :
    Meets (fun t e => (act' e t).2) ok' (translate act tr es s) t := by
  induction es generalizing s t with
  | nil => trivial
  | cons e es ih => exact ⟨hok s t e h hmeets.1, ih (hstep s t e h) hmeets.2⟩

end Simulation

def emitted {ρ : Type*} (step : σ → ε → σ) (out : σ → ε → List ρ) : List ε → σ → List ρ
  | [], _ => []
  | e :: es, s => out s e ++ emitted step out es (step s e)

theorem emitted_map {ρ ρ' : Type*} (f : ρ → ρ') (step : σ → ε → σ) (out : σ → ε → List ρ)
    (es : List ε) (s : σ) :
    (emitted step out es s).map f = emitted step (fun s e => (out s e).map f) es s := by
  induction es generalizing s with
  | nil => rfl
  | cons e es ih => rw [emitted, emitted, List.map_append, ih]

/-- A log to which every step appends its output holds what the run put out. -/
theorem log_run {ρ : Type*} {step : σ → ε → σ} {out : σ → ε → List ρ} {I : σ → Prop}
    (log : σ → List ρ) (hI : ∀ s e, I s → I (step s e))
    (hlog : ∀ s e, I s → log (step s e) = log s ++ out s e) (es : List ε) {s : σ} (h : I s) :
    log (run step es s) = log s ++ emitted step out es s := by
  induction es generalizing s with
  | nil => exact (List.append_nil (log s)).symm
  | cons e es ih => rw [run_cons, ih (hI s e h), hlog s e h, emitted, List.append_assoc]

section Projection
variable {τ ε' ρ ρ' : Type*} {step : σ → ε → σ} {step' : τ → ε' → τ} {I : σ → Prop}
  (view : σ → τ) {tr : ε → Option ε'} {out : σ → ε → List ρ} {out' : τ → ε' → List ρ'}
  {mine : ρ → Option ρ'}

/-- A part of the state that each step changes as a machine of its own would, or not at all,
is that machine's state after the events it sees. -/
theorem project_run (hI : ∀ s e, I s → I (step s e))
    (hstep : ∀ s e, I s → view (step s e) = (tr e).elim (view s) (step' (view s)))
    (es : List ε) {s : σ} (h : I s) :
    view (run step es s) = run step' (es.filterMap tr) (view s) := by
  induction es generalizing s with
  | nil => rfl
  | cons e es ih =>
    rw [run_cons, ih (hI s e h), hstep s e h]
    cases he : tr e with
    | none => simp [he]
    | some e' => simp [he]

theorem project_emitted (hI : ∀ s e, I s → I (step s e))
    (hstep : ∀ s e, I s → view (step s e) = (tr e).elim (view s) (step' (view s)))
    (hout : ∀ s e, I s → (out s e).filterMap mine = (tr e).elim [] (out' (view s)))
    (es : List ε) {s : σ} (h : I s) :
    (emitted step out es s).filterMap mine = emitted step' out' (es.filterMap tr) (view s) := by
  induction es generalizing s with
  | nil => rfl
  | cons e es ih =>
    rw [emitted, List.filterMap_append, ih (hI s e h), hstep s e h, hout s e h]
    cases he : tr e with
    | none => simp [he]
    | some e' => simp [he, emitted]

end Projection

section Product
variable {ι : Type*} [DecidableEq ι] {step : σ → ε → σ}

/-- Many components side by side; an event names the one it is for. -/
def familyStep (step : σ → ε → σ) (w : ι → σ) (e : ι × ε) : ι → σ :=
  Function.update w e.1 (step (w e.1) e.2)

def eventsOf (i : ι) (es : List (ι × ε)) : List ε :=
  es.filterMap fun e => if e.1 = i then some e.2 else none

theorem eventsOf_split {i : ι} {es : List (ι × ε)} {us vs : List ε} {x : ε}
    (h : eventsOf i es = us ++ x :: vs) :
    ∃ u v, es = u ++ (i, x) :: v ∧ eventsOf i u = us ∧ eventsOf i v = vs := by
  obtain ⟨u, rest, rfl, hu, hrest⟩ := List.filterMap_eq_append_iff.mp h
  obtain ⟨skipped, ⟨j, y⟩, v, rfl, hskipped, hy, hv⟩ := List.filterMap_eq_cons_iff.mp hrest
  have hnone : eventsOf i skipped = [] := List.filterMap_eq_nil_iff.mpr hskipped
  have hj : j = i ∧ y = x := by
    simp only at hy
    split at hy
    · exact ⟨‹_›, Option.some.inj hy⟩
    · cases hy
  obtain ⟨rfl, rfl⟩ := hj
  refine ⟨u ++ skipped, v, by simp, ?_, hv⟩
  rw [eventsOf, List.filterMap_append] at *
  rw [hu]
  simpa [eventsOf] using hskipped

/-- A component's state depends on its own events only. -/
theorem family_run (es : List (ι × ε)) (w : ι → σ) (i : ι) :
    run (familyStep step) es w i = run step (eventsOf i es) (w i) := by
  induction es generalizing w with
  | nil => rfl
  | cons e es ih =>
    rw [run_cons, ih, familyStep]
    by_cases hi : e.1 = i
    · subst hi
      simp [eventsOf]
    · simp [eventsOf, hi, Function.update_of_ne (Ne.symm hi)]

theorem family_inv {I : ι → σ → Prop} (hstep : ∀ i s e, I i s → I i (step s e))
    (es : List (ι × ε)) {w : ι → σ} (h : ∀ i, I i (w i)) (i : ι) :
    I i (run (familyStep step) es w i) := by
  rw [family_run]
  exact inv_run_always (hstep i) _ _ (h i)

end Product

/-- States reached from an initial one by some event list. -/
def Reachable (step : σ → ε → σ) (init : σ → Prop) (s : σ) : Prop :=
  ∃ s₀ es, init s₀ ∧ run step es s₀ = s

theorem Reachable.inv {step : σ → ε → σ} {init I : σ → Prop}
    (hinit : ∀ s, init s → I s) (hstep : ∀ s e, I s → I (step s e))
    {s : σ} (h : Reachable step init s) : I s := by
  obtain ⟨s₀, es, h₀, rfl⟩ := h
  exact inv_run_always hstep es s₀ (hinit s₀ h₀)

theorem Reachable.step {step : σ → ε → σ} {init : σ → Prop} {s : σ}
    (h : Reachable step init s) (e : ε) : Reachable step init (step s e) := by
  obtain ⟨s₀, es, h₀, rfl⟩ := h
  exact ⟨s₀, es ++ [e], h₀, run_concat step es e s₀⟩

end PyVpn.EventRun
