import PyVpn.BigEndian
import Mathlib.Algebra.Order.Ring.Rat
import Mathlib.Data.List.AList
import Mathlib.Order.Defs.Unbundled

/-! The Python runtime the repository is written in: exceptions, methods that
mutate one object and may raise, slices, `struct`, truth values. -/
namespace PyVpn
open BigEndian

abbrev Bytes := List UInt8

inductive PyError where
  | valueError
  | structError
  | attributeError
  | keyError
  | osError
  | unicodeDecodeError
  | cryptoError
  | calledProcessError
  | typeError
  | indexError
  | systemExit
  | tlsChannelError
  deriving DecidableEq, Repr

/-- A method body on an object of type `σ`: what it wrote before it raised stays. -/
def Py (σ α : Type) : Type := σ → Except PyError α × σ

namespace Py
variable {σ τ α β : Type}

def bind (x : Py σ α) (f : α → Py σ β) : Py σ β := fun s =>
  match x s with
  | (.ok a, s') => f a s'
  | (.error e, s') => (.error e, s')

instance : Monad (Py σ) where
  pure a := fun s => (.ok a, s)
  bind := bind

def raise (e : PyError) : Py σ α := fun s => (.error e, s)

def ofExcept (r : Except PyError α) : Py σ α := fun s => (r, s)

def self : Py σ σ := fun s => (.ok s, s)

def assign (f : σ → σ) : Py σ Unit := fun s => (.ok (), f s)

/-- `try: body / except Exception: handler`. -/
def tryExcept (body handler : Py σ α) : Py σ α := fun s =>
  match body s with
  | (.ok a, s') => (.ok a, s')
  | (.error _, s') => handler s'

/-- A call that raises this, if anything. -/
def raiseFault (fault : Option PyError) : Py σ Unit :=
  match fault with
  | none => return ()
  | some e => raise e

@[simp] theorem pure_run (a : α) (s : σ) : (pure a : Py σ α) s = (.ok a, s) := rfl

@[simp] theorem bind_run (x : Py σ α) (f : α → Py σ β) (s : σ) :
    (x >>= f) s = match x s with
      | (.ok a, s') => f a s'
      | (.error e, s') => (.error e, s') := rfl

theorem raiseFault_cases (fault : Option PyError) (s : σ) :
    (∃ e, raiseFault fault s = (.error e, s)) ∨ raiseFault fault s = (.ok (), s) := by
  cases fault with
  | none => exact .inr rfl
  | some e => exact .inl ⟨e, rfl⟩

@[simp] theorem raise_run (e : PyError) (s : σ) : (raise e : Py σ α) s = (.error e, s) := rfl

@[simp] theorem ofExcept_run (r : Except PyError α) (s : σ) : ofExcept r s = (r, s) := rfl

@[simp] theorem self_run (s : σ) : (self : Py σ σ) s = (.ok s, s) := rfl

@[simp] theorem assign_run (f : σ → σ) (s : σ) : assign f s = (.ok (), f s) := rfl

@[simp] theorem tryExcept_run (body handler : Py σ α) (s : σ) :
    tryExcept body handler s = match body s with
      | (.ok a, s') => (.ok a, s')
      | (.error _, s') => handler s' := rfl

/-- Whatever a method does, it takes a state to one related to it. -/
def Keeps (R : σ → σ → Prop) (method : Py σ α) : Prop := ∀ s, R s (method s).2

section Keeps
variable {R : σ → σ → Prop} [IsPreorder σ R] {x y : Py σ α}

theorem Keeps.pure (a : α) : Keeps R (return a : Py σ α) := fun s => refl_of R s

theorem Keeps.raise (e : PyError) : Keeps R (raise e : Py σ α) := fun s => refl_of R s

theorem Keeps.raiseFault (fault : Option PyError) : Keeps R (raiseFault fault : Py σ Unit) := by
  cases fault with
  | none => exact Keeps.pure ()
  | some e => exact Keeps.raise e

theorem Keeps.ofExcept (r : Except PyError α) : Keeps R (ofExcept r : Py σ α) :=
  fun s => refl_of R s

theorem Keeps.bind {f : α → Py σ β} (hx : Keeps R x) (hf : ∀ a, Keeps R (f a)) :
    Keeps R (x >>= f) := by
  intro s
  have hfirst := hx s
  rw [bind_run]
  cases hrun : x s with
  | mk r t =>
    rw [hrun] at hfirst
    cases r with
    | error e => exact hfirst
    | ok a => exact trans_of R hfirst (hf a t)

theorem Keeps.self {f : σ → Py σ α} (hf : ∀ s, Keeps R (f s)) : Keeps R (self >>= f) :=
  Keeps.bind (fun s => refl_of R s) hf

omit [IsPreorder σ R] in
theorem Keeps.ite {c : Prop} [Decidable c] (hx : Keeps R x) (hy : Keeps R y) :
    Keeps R (if c then x else y) := by
  by_cases h : c
  · rwa [if_pos h]
  · rwa [if_neg h]

theorem Keeps.forM {f : α → Py σ Unit} (hf : ∀ a, Keeps R (f a)) (l : List α) :
    Keeps R (l.forM f) := by
  induction l with
  | nil => exact Keeps.pure ()
  | cons a l ih => exact (hf a).bind fun _ => ih

end Keeps

/-- A method that neither reads nor writes what `f` forgets. -/
def Blind (f : σ → σ) (method : Py σ α) : Prop := ∀ s, method (f s) = ((method s).1, f (method s).2)

section Blind
variable {f : σ → σ} {x y : Py σ α}

theorem Blind.pure (a : α) : Blind f (return a : Py σ α) := fun _ => rfl

theorem Blind.raiseFault (fault : Option PyError) : Blind f (raiseFault fault : Py σ Unit) := by
  cases fault with
  | none => exact Blind.pure ()
  | some e => exact fun _ => rfl

theorem Blind.ofExcept (r : Except PyError α) : Blind f (ofExcept r : Py σ α) := fun _ => rfl

theorem Blind.bind {g : α → Py σ β} (hx : Blind f x) (hg : ∀ a, Blind f (g a)) :
    Blind f (x >>= g) := by
  intro s
  rw [bind_run, bind_run, hx s]
  cases x s with
  | mk r t =>
    cases r with
    | error e => rfl
    | ok a => exact hg a t

theorem Blind.self {g : σ → Py σ α} (hread : ∀ s, g (f s) = g s) (hg : ∀ s, Blind f (g s)) :
    Blind f (self >>= g) := by
  intro s
  rw [bind_run, bind_run]
  simp only [self_run, hread]
  exact hg s s

theorem Blind.assign {g : σ → σ} {k : Unit → Py σ α} (h : ∀ s, g (f s) = f (g s))
    (hk : ∀ u, Blind f (k u)) : Blind f (assign g >>= k) := by
  intro s
  rw [bind_run, bind_run]
  simp only [assign_run, h]
  exact hk () (g s)

theorem Blind.ite {c : Prop} [Decidable c] (hx : Blind f x) (hy : Blind f y) :
    Blind f (if c then x else y) := by
  by_cases h : c
  · rwa [if_pos h]
  · rwa [if_neg h]

theorem Blind.tryExcept (hx : Blind f x) (hy : Blind f y) : Blind f (tryExcept x y) := by
  intro s
  rw [tryExcept_run, tryExcept_run, hx s]
  cases x s with
  | mk r t =>
    cases r with
    | error e => exact hy t
    | ok a => rfl

end Blind

end Py

/-- `b[i:j]` for `0 ≤ i, j`; bounds past the end shorten the result. -/
def slice (b : Bytes) (i j : Nat) : Bytes := (b.take j).drop i

theorem slice_length (b : Bytes) (i j : Nat) : (slice b i j).length = min j b.length - i := by
  simp [slice]

theorem slice_middle (a b c : Bytes) : slice (a ++ (b ++ c)) a.length (a.length + b.length) = b := by
  rw [slice, ← List.append_assoc, List.take_append_of_le_length (by simp), List.take_of_length_le
    (by simp), List.drop_left]

/-- `struct.pack` of one unsigned integer of the given width, network order. -/
def pack (width n : Nat) : Except PyError Bytes :=
  if n < 256 ^ width then .ok (be width n) else .error .structError

/-- `struct.unpack` of one unsigned integer of the given width, network order. -/
def unpack (width : Nat) (b : Bytes) : Except PyError Nat :=
  if b.length = width then .ok (ofBe b) else .error .structError

theorem pack_ok {width n : Nat} (h : n < 256 ^ width) : pack width n = .ok (be width n) := if_pos h

theorem pack_eq_ok {width n : Nat} {b : Bytes} (h : pack width n = .ok b) :
    n < 256 ^ width ∧ b = be width n := by
  unfold pack at h
  split at h
  · exact ⟨‹_›, (Except.ok.inj h).symm⟩
  · cases h

theorem unpack_be {width n : Nat} (h : n < 256 ^ width) : unpack width (be width n) = .ok n := by
  rw [unpack, if_pos (be_length width n), ofBe_be_of_lt h]

/-- Truth value of an optional string or byte string: `None` and the empty one are false. -/
def truthy (x : Option String) : Bool := x.any (· ≠ "")

def truthyBytes (x : Option Bytes) : Bool := x.any (· ≠ [])

def orEmpty (x : Option Bytes) : Bytes := x.getD []

/-- Seconds, as `time.time()` returns them. -/
abbrev Time := ℚ

theorem bind_eq_ok {α β : Type} {x : Except PyError α} {f : α → Except PyError β} {b : β} :
    (x >>= f) = .ok b ↔ ∃ a, x = .ok a ∧ f a = .ok b := by
  cases x with
  | error e =>
    constructor
    · intro h
      cases h
    · intro hrun
      obtain ⟨a, h, -⟩ := hrun
      cases h
  | ok a =>
    constructor
    · intro h
      exact ⟨a, rfl, h⟩
    · intro hrun
      obtain ⟨a', h, hf⟩ := hrun
      cases h
      exact hf

theorem mapM_ok {α β : Type} {f : α → Except PyError β} {g : α → β} {l : List α}
    (h : ∀ a ∈ l, f a = .ok (g a)) : l.mapM f = .ok (l.map g) := by
  induction l with
  | nil => rfl
  | cons a l ih =>
    have hl := ih fun b hb => h b (List.mem_cons_of_mem a hb)
    rw [List.mapM_cons, h a List.mem_cons_self, hl]
    rfl

theorem mapM_cases {α β : Type} {f : α → Except PyError β} {e : PyError}
    (h : ∀ a, f a = .error e ∨ ∃ b, f a = .ok b) (l : List α) :
    ((∃ a ∈ l, f a = .error e) ∧ l.mapM f = .error e) ∨
      ((∀ a ∈ l, f a ≠ .error e) ∧ ∃ bs, l.mapM f = .ok bs) := by
  induction l with
  | nil => exact .inr ⟨fun a ha => absurd ha List.not_mem_nil, [], rfl⟩
  | cons a l ih =>
    rw [List.mapM_cons]
    cases h a with
    | inl hraises =>
      rw [hraises]
      exact .inl ⟨⟨a, List.mem_cons_self, hraises⟩, rfl⟩
    | inr hreturns =>
      obtain ⟨b, hb⟩ := hreturns
      have hfirst : f a ≠ .error e := by
        rw [hb]
        exact fun heq => nomatch heq
      obtain ⟨⟨c, hc, hraises⟩, hrun⟩ | ⟨hrest, bs, hrun⟩ := ih
      · rw [hb, hrun]
        exact .inl ⟨⟨c, List.mem_cons_of_mem a hc, hraises⟩, rfl⟩
      · rw [hb, hrun]
        exact .inr ⟨List.forall_mem_cons.mpr ⟨hfirst, hrest⟩, b :: bs, rfl⟩

theorem mapM_eq_ok {α β : Type} {f : α → Except PyError β} {l : List α} {bs : List β}
    (h : l.mapM f = .ok bs) : ∀ a ∈ l, ∃ b, f a = .ok b := by
  induction l generalizing bs with
  | nil =>
    intro a ha
    cases ha
  | cons a l ih =>
    rw [List.mapM_cons] at h
    cases ha : f a with
    | error e =>
      rw [ha] at h
      cases h
    | ok b =>
      cases hl : l.mapM f with
      | error e =>
        rw [ha, hl] at h
        cases h
      | ok bs =>
        intro c hc
        cases List.mem_cons.mp hc with
        | inl heq => exact ⟨b, heq ▸ ha⟩
        | inr hmem => exact ih hl c hmem

/-- A loop over what `g` writes, where `f` reads back what `g` wrote. -/
theorem mapM_inverse {α β : Type} {f : α → Except PyError β} {g : β → α} (valid : β → Prop)
    (h : ∀ a b, f a = .ok b → valid b ∧ a = g b) {l : List α} {bs : List β}
    (hrun : l.mapM f = .ok bs) : (∀ b ∈ bs, valid b) ∧ l = bs.map g := by
  induction l generalizing bs with
  | nil =>
    cases hrun
    exact ⟨fun b hb => absurd hb List.not_mem_nil, rfl⟩
  | cons a l ih =>
    rw [List.mapM_cons] at hrun
    obtain ⟨b, hb, hrun⟩ := bind_eq_ok.mp hrun
    obtain ⟨bs', hbs, hrun⟩ := bind_eq_ok.mp hrun
    cases hrun
    obtain ⟨hvalid, hback⟩ := h a b hb
    obtain ⟨hvalids, hbacks⟩ := ih hbs
    exact ⟨List.forall_mem_cons.mpr ⟨hvalid, hvalids⟩, by rw [hback, hbacks]; rfl⟩

theorem mapM_length {α β : Type} {f : α → Except PyError β} {l : List α} {bs : List β}
    (h : l.mapM f = .ok bs) : bs.length = l.length := by
  induction l generalizing bs with
  | nil =>
    cases h
    rfl
  | cons a l ih =>
    rw [List.mapM_cons] at h
    cases ha : f a with
    | error e =>
      rw [ha] at h
      cases h
    | ok b =>
      cases hl : l.mapM f with
      | error e =>
        rw [ha, hl] at h
        cases h
      | ok cs =>
        rw [ha, hl] at h
        cases h
        rw [List.length_cons, List.length_cons, ih hl]

/-- A Python `dict`: finitely many keys, one value each. -/
abbrev Dict (κ ν : Type) := AList (fun _ : κ => ν)

theorem Dict.forall_insert {κ ν : Type} [DecidableEq κ] {d : Dict κ ν} {p : κ → ν → Prop}
    (h : ∀ k v, d.lookup k = some v → p k v) {k : κ} {v : ν} (hv : p k v) :
    ∀ j w, (d.insert k v).lookup j = some w → p j w := by
  intro j w hlookup
  by_cases hj : j = k
  · subst hj
    rw [AList.lookup_insert] at hlookup
    exact Option.some.inj hlookup ▸ hv
  · rw [AList.lookup_insert_ne hj] at hlookup
    exact h j w hlookup

theorem Dict.eq_empty {κ ν : Type} [DecidableEq κ] {d : Dict κ ν} (h : ∀ k, d.lookup k = none) :
    d = ∅ := by
  refine AList.ext (List.eq_nil_iff_forall_not_mem.mpr fun entry hentry => ?_)
  have hsome : d.lookup entry.1 = some entry.2 := AList.mem_lookup_iff.mpr hentry
  rw [h] at hsome
  cases hsome

/-- `for k in ks: d.pop(k, None)`. -/
def Dict.popAll {κ ν : Type} [DecidableEq κ] (ks : List κ) (d : Dict κ ν) : Dict κ ν :=
  ks.foldl (fun d k => d.erase k) d

theorem Dict.lookup_popAll {κ ν : Type} [DecidableEq κ] (ks : List κ) (d : Dict κ ν) (k : κ) :
    (Dict.popAll ks d).lookup k = if k ∈ ks then none else d.lookup k := by
  unfold popAll
  induction ks generalizing d with
  | nil => simp
  | cons j ks ih =>
    rw [List.foldl_cons, ih]
    by_cases hk : k ∈ ks
    · simp [hk]
    · by_cases hj : k = j
      · subst hj
        simp [AList.lookup_erase]
      · simp [hk, hj, AList.lookup_erase_ne hj]

end PyVpn
