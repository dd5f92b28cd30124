import Mathlib.Computability.StateTransition
import Simulith.Lts.Basic

/-!
# Programs that call a machine

`Program C R A` is a program that makes calls `C`, goes on by the answers `R`
and returns an `A`. A machine answers a call at once, or it calls back: then a
program runs first, with the machine at its disposal, and what it returns is
the answer (`Machine.step`). So calls nest to any depth, and a program that is
called back for ever never returns. `Returns` has one rule for each way a call
is answered; `Returns.unique` says that there is no choice, and
`Machine.exists_exec` that the nesting leaves no trace in the machine.
-/

inductive Program (C R A : Type*) where
  | ret (a : A)
  | call (c : C) (k : R → Program C R A)

namespace Program

open StateTransition

variable {σ τ α C R A B : Type*}

/-- `f` after `p`. -/
def bind : Program C R A → (A → Program C R B) → Program C R B
  | ret a, f => f a
  | call c k, f => call c fun r => (k r).bind f

theorem bind_assoc {D : Type*} (p : Program C R A) (f : A → Program C R B)
    (g : B → Program C R D) : (p.bind f).bind g = p.bind fun a => (f a).bind g := by
  induction p with
  | ret a => rfl
  | call c k ih =>
    show Program.call c _ = Program.call c _
    exact congrArg _ (funext ih)

/-- None of its calls is one of these, whatever it is answered. -/
def Avoids (K : C → Prop) : Program C R A → Prop
  | ret _ => True
  | call c k => ¬ K c ∧ ∀ r, (k r).Avoids K

structure Machine (σ C R : Type*) where
  call : σ → C → Option (σ × R)
  /-- The program an answer stands for, when it is a callback. -/
  callback : R → Option (Program C R R)

namespace Machine

variable (M : Machine σ C R)

/-- What is left to run once a call has been answered. -/
def resume (k : R → Program C R A) (r : R) : Program C R A :=
  match M.callback r with
  | none => k r
  | some p => p.bind k

/-- The next call. -/
def step : σ × Program C R A → Option (σ × Program C R A)
  | (_, .ret _) => none
  | (s, .call c k) => (M.call s c).map fun u => (u.1, M.resume k u.2)

/-- `p` returns `a` and leaves the machine in state `t`. -/
def Returns (s : σ) (p : Program C R A) (t : σ) (a : A) : Prop := Reaches M.step (s, p) (t, .ret a)

variable {M} {s t u : σ} {p q : Program C R A} {a : A} {c : C} {r : R}
  {x y : σ × Program C R A}

theorem resume_none {k : R → Program C R A} (h : M.callback r = none) : M.resume k r = k r := by
  unfold resume
  rw [h]

theorem resume_some {k : R → Program C R A} {p : Program C R R} (h : M.callback r = some p) :
    M.resume k r = p.bind k := by
  unfold resume
  rw [h]

theorem resume_bind (k : R → Program C R A) (f : A → Program C R B) :
    (M.resume k r).bind f = M.resume (fun r => (k r).bind f) r := by
  unfold resume
  split
  · rfl
  · exact bind_assoc _ _ _

theorem step_call {k : R → Program C R A} (h : M.call s c = some (t, r)) :
    M.step (s, .call c k) = some (t, M.resume k r) := by
  show (M.call s c).map _ = _
  rw [h]
  rfl

theorem exists_call (h : M.step x = some y) :
    ∃ c k r, x.2 = .call c k ∧ M.call x.1 c = some (y.1, r) ∧ y.2 = M.resume k r := by
  obtain ⟨s, p⟩ := x
  cases p with
  | ret a => cases h
  | call c k =>
    obtain ⟨⟨t, r⟩, hcall, rfl⟩ := Option.map_eq_some_iff.mp h
    exact ⟨c, k, r, rfl, hcall, rfl⟩

theorem reaches_of_exec {us : List Unit} (h : Lts.exec (fun x _ => M.step x) x us = some y) :
    Reaches M.step x y := by
  induction us generalizing x with
  | nil =>
    cases h
    exact .refl
  | cons u us ih =>
    obtain ⟨z, hz, h⟩ := Lts.exec_cons_eq_some.mp h
    exact .head hz (ih h)

/-! ## What a program returns -/

theorem eq_of_reaches_ret (h : Reaches M.step (s, .ret a) x) : x = (s, .ret a) := by
  rcases h.cases_head with h | ⟨y, hy, -⟩
  · exact h.symm
  · cases hy

theorem Returns.resume (h : M.Returns s p t a) (hx : Reaches M.step (s, p) x) :
    Reaches M.step x (t, .ret a) := by
  rcases reaches_total hx h with h | h
  · exact h
  · rw [eq_of_reaches_ret h]
    exact .refl

/-- **A program returns in one way only.** -/
theorem Returns.unique {b : A} (h : M.Returns s p t a) (h' : M.Returns s p u b) :
    t = u ∧ a = b := by
  have hb := eq_of_reaches_ret (h.resume h')
  cases hb
  exact ⟨rfl, rfl⟩

theorem Returns.ret (s : σ) (a : A) : M.Returns s (.ret a) s a := .refl

theorem reaches_bind {f : A → Program C R B} (h : Reaches M.step x y) :
    Reaches M.step (x.1, x.2.bind f) (y.1, y.2.bind f) := by
  induction h with
  | refl => exact .refl
  | tail _ hyz ih =>
    obtain ⟨c, k, r, hp, hcall, hq⟩ := exists_call hyz
    refine ih.tail ?_
    rw [hp, hq, resume_bind]
    exact step_call hcall

theorem Returns.bind {f : A → Program C R B} {b : B} (h : M.Returns s p t a)
    (hf : M.Returns t (f a) u b) : M.Returns s (p.bind f) u b :=
  (reaches_bind h).trans hf

theorem Returns.call {k : R → Program C R A} (hcall : M.call s c = some (t, r))
    (hr : M.callback r = none) (hk : M.Returns t (k r) u a) : M.Returns s (.call c k) u a := by
  refine .head (step_call hcall) ?_
  rw [resume_none hr]
  exact hk

theorem Returns.callBack {k : R → Program C R A} {p : Program C R R} {v : σ} {r' : R}
    (hcall : M.call s c = some (t, r)) (hr : M.callback r = some p) (hp : M.Returns t p u r')
    (hk : M.Returns u (k r') v a) : M.Returns s (.call c k) v a := by
  refine .head (step_call hcall) ?_
  rw [resume_some hr]
  exact hp.bind hk

/-! ## What it does to the machine -/

/-- **Nested calls are a flat run.** `f` is a part of the machine's state that each call changes as
a step of `step'` does, or not at all: then this part is where a run of such steps leads,
wherever the program has come to. -/
theorem exists_exec {step' : τ → α → Option τ} {K : α → Prop} (f : σ → τ)
    (hcall : ∀ s c t r, M.call s c = some (t, r) →
      f t = f s ∨ ∃ e, K e ∧ step' (f s) e = some (f t)) (h : Reaches M.step x y) :
    ∃ es, (∀ e ∈ es, K e) ∧ Lts.exec step' (f x.1) es = some (f y.1) := by
  induction h with
  | refl => exact ⟨[], by simp, rfl⟩
  | tail _ hyz ih =>
    obtain ⟨es, hK, hes⟩ := ih
    obtain ⟨c, k, r, -, hc, -⟩ := exists_call hyz
    rcases hcall _ c _ r hc with hf | ⟨e, he, hstep⟩
    · rw [hf]
      exact ⟨es, hK, hes⟩
    · exact ⟨es ++ [e], List.forall_mem_append.mpr ⟨hK, List.forall_mem_singleton.mpr he⟩,
        Lts.exec_snoc_eq_some.mpr ⟨_, hes, hstep⟩⟩

end Machine

/-! ## The calls it avoids -/

namespace Avoids

open Machine

variable {M : Machine σ C R} {M' : Machine τ C R} {x y : σ × Program C R A} {K : C → Prop}
  {Q : σ → τ → Prop} {v : τ}

theorem bind {p : Program C R A} {f : A → Program C R B} (h : p.Avoids K)
    (hf : ∀ a, (f a).Avoids K) : (p.bind f).Avoids K := by
  induction p with
  | ret a => exact hf a
  | call c k ih => exact ⟨h.1, fun r => ih r (h.2 r)⟩

theorem of_forall (h : ∀ c, ¬ K c) (p : Program C R A) : p.Avoids K := by
  induction p with
  | ret a => trivial
  | call c k ih => exact ⟨h c, ih⟩

theorem step (h : x.2.Avoids K) (hback : ∀ r p, M.callback r = some p → p.Avoids K)
    (hs : M.step x = some y) : y.2.Avoids K := by
  obtain ⟨c, k, r, hp, -, hq⟩ := exists_call hs
  rw [hp] at h
  rw [hq]
  unfold resume
  split
  · exact h.2 r
  · next p hr => exact (hback r p hr).bind h.2

theorem reaches (h : x.2.Avoids K) (hback : ∀ r p, M.callback r = some p → p.Avoids K)
    (hx : Reaches M.step x y) : y.2.Avoids K := by
  induction hx with
  | refl => exact h
  | tail _ hyz ih => exact ih.step hback hyz

theorem keeps {I : σ → Prop} (h : x.2.Avoids K)
    (hback : ∀ r p, M.callback r = some p → p.Avoids K)
    (hcall : ∀ s c t r, ¬ K c → I s → M.call s c = some (t, r) → I t) (h0 : I x.1)
    (hx : Reaches M.step x y) : I y.1 := by
  induction hx with
  | refl => exact h0
  | tail hxy hyz ih =>
    have hy := h.reaches hback hxy
    obtain ⟨c, k, r, hp, hc, -⟩ := exists_call hyz
    rw [hp] at hy
    exact hcall _ c _ r hy.1 ih hc

/-- **Machines whose calls agree run a program alike**, however its calls nest. -/
theorem agree (h : x.2.Avoids K) (hback : ∀ r p, M.callback r = some p → p.Avoids K)
    (heq : M'.callback = M.callback)
    (hcall : ∀ s v c, ¬ K c → Q s v → Lts.Agree Q (M.call s c) (M'.call v c)) (h0 : Q x.1 v)
    (hx : Reaches M.step x y) : ∃ w, Reaches M'.step (v, x.2) (w, y.2) ∧ Q y.1 w := by
  induction hx with
  | refl => exact ⟨v, .refl, h0⟩
  | @tail y z hxy hyz ih =>
    obtain ⟨w, hw, hq⟩ := ih
    have hy := h.reaches hback hxy
    obtain ⟨c, k, r, hp, hc, hz⟩ := exists_call hyz
    rw [hp] at hy
    have hagree := hcall y.1 w c hy.1 hq
    rw [hc] at hagree
    generalize hc' : M'.call w c = u at hagree
    cases hagree with
    | some hw' =>
      refine ⟨_, hw.tail ?_, hw'⟩
      rw [hp, hz]
      refine (step_call hc').trans ?_
      unfold resume
      rw [heq]

end Avoids

end Program
