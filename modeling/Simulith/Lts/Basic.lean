import Mathlib.Data.List.Induction
import Mathlib.Tactic.Cases

/-!
# Runs of a step function

`step s a = some t`: the system in state `s` can perform `a`, and is then in
state `t`. Nondeterminism is in the labels. `exec` performs a list of labels,
`Along P` says that each of them is performed in a state that allows it by
`P`. The rules here lift one-step facts to runs: invariants
(`exec_invariant`, `exec_history`), the simulation of one system by another
(`exec_related`), the existence of a run to a goal step from a measure that
some step lowers (`exists_exec_goal`), and a bound on the length of a run from
one that all its steps lower (`exec_length_le`).
-/

namespace Lts

variable {σ τ α : Type*}

/-- Perform the labels in order. -/
def exec (step : σ → α → Option σ) : σ → List α → Option σ
  | s, [] => some s
  | s, a :: as => (step s a).bind fun t => exec step t as

/-- Every label of the run is performed in a state `P` allows it in. -/
def Along (step : σ → α → Option σ) (P : σ → α → Prop) : σ → List α → Prop
  | _, [] => True
  | s, a :: as => P s a ∧ ∀ t, step s a = some t → Along step P t as

variable {step : σ → α → Option σ} {P : σ → α → Prop} {I : σ → Prop}

@[simp] theorem exec_nil (s : σ) : exec step s [] = some s := rfl

instance [∀ s a, Decidable (P s a)] : ∀ s as, Decidable (Along step P s as)
  | _, [] => isTrue trivial
  | s, a :: as =>
    match hs : step s a with
    | none =>
      decidable_of_iff (P s a) ⟨fun h => ⟨h, fun t ht => by rw [hs] at ht; cases ht⟩, And.left⟩
    | some t =>
      have := instDecidableAlong t as
      decidable_of_iff (P s a ∧ Along step P t as)
        ⟨fun h => ⟨h.1, fun u hu => by rw [hs] at hu; cases hu; exact h.2⟩,
          fun h => ⟨h.1, h.2 t hs⟩⟩

theorem exec_cons_eq_some {s u : σ} {a : α} {as : List α} :
    exec step s (a :: as) = some u ↔ ∃ t, step s a = some t ∧ exec step t as = some u := by
  simp [exec, Option.bind_eq_some_iff]

theorem exec_append (s : σ) (as bs : List α) :
    exec step s (as ++ bs) = (exec step s as).bind fun t => exec step t bs := by
  induction as generalizing s with
  | nil => rfl
  | cons a as ih =>
    simp only [List.cons_append, exec, Option.bind_assoc]
    exact congrArg _ (funext fun t => ih t)

theorem exec_append_eq_some {s u : σ} {as bs : List α} :
    exec step s (as ++ bs) = some u ↔ ∃ t, exec step s as = some t ∧ exec step t bs = some u := by
  simp [exec_append, Option.bind_eq_some_iff]

theorem exec_snoc_eq_some {s u : σ} {as : List α} {a : α} :
    exec step s (as ++ [a]) = some u ↔ ∃ t, exec step s as = some t ∧ step t a = some u := by
  simp [exec_append, Option.bind_eq_some_iff, exec]

theorem exec_map {β : Type*} (f : β → α) (s : σ) (bs : List β) :
    exec (fun s b => step s (f b)) s bs = exec step s (bs.map f) := by
  induction bs generalizing s with
  | nil => rfl
  | cons b bs ih =>
    simp only [List.map_cons, exec]
    exact congrArg _ (funext fun t => ih t)

theorem Along.left {s : σ} {as bs : List α} (h : Along step P s (as ++ bs)) :
    Along step P s as := by
  induction as generalizing s with
  | nil => trivial
  | cons a as ih => exact ⟨h.1, fun t ht => ih (h.2 t ht)⟩

theorem Along.mono {Q : σ → α → Prop} {s : σ} {as : List α} (h : Along step P s as)
    (hPQ : ∀ s a, P s a → Q s a) : Along step Q s as := by
  induction as generalizing s with
  | nil => trivial
  | cons a as ih => exact ⟨hPQ s a h.1, fun t ht => ih (h.2 t ht)⟩

/-- Along a run: in the state that each prefix leads to. -/
theorem along_iff {s : σ} {as : List α} : Along step P s as ↔
    ∀ pre a post t, as = pre ++ a :: post → exec step s pre = some t → P t a := by
  induction as generalizing s with
  | nil => exact iff_of_true trivial fun pre a post t e => by simp at e
  | cons b as ih =>
    constructor
    · rintro ⟨hb, hs⟩ pre a post t e ht
      cases pre with
      | nil =>
        cases e
        cases ht
        exact hb
      | cons p pre =>
        cases e
        obtain ⟨u, hu, ht⟩ := exec_cons_eq_some.mp ht
        exact ih.mp (hs u hu) pre a post t rfl ht
    · intro h
      refine ⟨h [] b as s rfl rfl, fun u hu => ih.mpr fun pre a post t e ht => ?_⟩
      exact h (b :: pre) a post t (by rw [e]; rfl) (exec_cons_eq_some.mpr ⟨u, hu, ht⟩)

theorem Along.right {s t : σ} {as bs : List α} (h : Along step P s (as ++ bs))
    (he : exec step s as = some t) : Along step P t bs :=
  along_iff.mpr fun pre a post u e hu => along_iff.mp h (as ++ pre) a post u
    (by rw [e, List.append_assoc]) (exec_append_eq_some.mpr ⟨t, he, hu⟩)

theorem Along.append {s t : σ} {as bs : List α} (h : Along step P s as)
    (he : exec step s as = some t) (h' : Along step P t bs) : Along step P s (as ++ bs) := by
  induction as generalizing s with
  | nil =>
    cases he
    exact h'
  | cons a as ih =>
    obtain ⟨u, hu, he⟩ := exec_cons_eq_some.mp he
    refine ⟨h.1, fun w hw => ?_⟩
    obtain rfl : u = w := Option.some.inj (hu.symm.trans hw)
    exact ih (h.2 u hu) he

theorem along_of_forall {s : σ} {as : List α} (h : ∀ a ∈ as, ∀ t, P t a) :
    Along step P s as := by
  induction as generalizing s with
  | nil => trivial
  | cons a as ih =>
    exact ⟨h a List.mem_cons_self s, fun t _ => ih fun b hb => h b (List.mem_cons_of_mem _ hb)⟩

/-- The steps of a run are allowed when a property that all its states have is lost by any step
that is not. -/
theorem along_of_forall_prefix {Q : σ → Prop} {s t : σ} {as : List α} (h : exec step s as = some t)
    (hall : ∀ pre post u, as = pre ++ post → exec step s pre = some u → Q u)
    (hstep : ∀ pre u a v, exec step s pre = some u → step u a = some v → Q u → Q v → P u a) :
    Along step P s as := by
  refine along_iff.mpr fun pre a post u he hu => ?_
  subst he
  obtain ⟨u', hu', hpost⟩ := exec_append_eq_some.mp h
  cases hu.symm.trans hu'
  obtain ⟨v, hv, -⟩ := exec_cons_eq_some.mp hpost
  have hnext : Q v := by
    refine hall (pre ++ [a]) post v ?_ (exec_snoc_eq_some.mpr ⟨u, hu, hv⟩)
    rw [List.append_assoc, List.singleton_append]
  exact hstep pre u a v hu hv (hall pre (a :: post) u rfl hu) hnext

/-- **Invariance**: what each allowed step preserves holds at the end of every allowed run. -/
theorem exec_invariant (hstep : ∀ s a t, I s → P s a → step s a = some t → I t) {s t : σ}
    {as : List α} (h0 : I s) (hP : Along step P s as) (h : exec step s as = some t) : I t := by
  induction as generalizing s with
  | nil => cases h; exact h0
  | cons a as ih =>
    obtain ⟨u, hu, h⟩ := exec_cons_eq_some.mp h
    exact ih (hstep s a u h0 hP.1 hu) (hP.2 u hu) h

theorem exec_preserves (hstep : ∀ s a t, I s → step s a = some t → I t) {s t : σ} {as : List α}
    (h0 : I s) (h : exec step s as = some t) : I t := by
  have hP : Along step (fun _ _ => True) s as := along_of_forall fun _ _ _ => trivial
  exact exec_invariant (fun s a t hs _ ht => hstep s a t hs ht) h0 hP h

/-- Invariance of a relation between the labels performed so far and the state. -/
theorem exec_history {H : List α → σ → Prop} {s : σ} (h0 : H [] s)
    (hstep : ∀ as t a u, Along step P s (as ++ [a]) → exec step s as = some t → H as t →
      step t a = some u → H (as ++ [a]) u)
    {as : List α} {t : σ} (hP : Along step P s as) (h : exec step s as = some t) : H as t := by
  induction as using List.reverseRecOn generalizing t with
  | nil => cases h; exact h0
  | append_singleton as a ih =>
    obtain ⟨u, hu, ha⟩ := exec_snoc_eq_some.mp h
    exact hstep as u a t hP hu (ih hP.left hu) ha

theorem exec_trace {H : List α → σ → Prop} {s : σ} (h0 : H [] s)
    (hstep : ∀ as t a u, H as t → step t a = some u → H (as ++ [a]) u)
    {as : List α} {t : σ} (h : exec step s as = some t) : H as t := by
  have hP : Along step (fun _ _ => True) s as := along_of_forall fun _ _ _ => trivial
  exact exec_history h0 (fun as t a u _ _ ht hu => hstep as t a u ht hu) hP h

theorem exec_mem {s t : σ} {as : List α} {a : α} (h : exec step s as = some t) (ha : a ∈ as) :
    ∃ pre post u v, as = pre ++ a :: post ∧ exec step s pre = some u ∧ step u a = some v ∧
      exec step v post = some t := by
  obtain ⟨pre, post, rfl⟩ := List.append_of_mem ha
  obtain ⟨u, hu, h⟩ := exec_append_eq_some.mp h
  obtain ⟨v, hv, h⟩ := exec_cons_eq_some.mp h
  exact ⟨pre, post, u, v, rfl, hu, hv, h⟩

theorem exists_exec_of_any {Q : σ → Prop} [DecidablePred Q] {s : σ} {as : List α}
    (h : (exec step s as).any (fun t => decide (Q t)) = true) :
    ∃ t, exec step s as = some t ∧ Q t := by
  obtain ⟨t, ht, hQ⟩ := (Option.any_eq_true _ _).mp h
  exact ⟨t, ht, of_decide_eq_true hQ⟩

/-- **Lockstep simulation**: two systems that can perform the same labels in
related states, and stay related, perform the same lists of labels and end in
related states. -/
theorem exec_related {step' : τ → α → Option τ} {R : σ → τ → Prop} {Q : α → Prop}
    (hR : ∀ s t a, R s t → Q a →
      (step s a = none ∧ step' t a = none) ∨
      ∃ s' t', step s a = some s' ∧ step' t a = some t' ∧ R s' t')
    {s : σ} {t : τ} {as : List α} (h : R s t) (hQ : ∀ a ∈ as, Q a) :
    (exec step s as = none ∧ exec step' t as = none) ∨
      ∃ s' t', exec step s as = some s' ∧ exec step' t as = some t' ∧ R s' t' := by
  induction as generalizing s t with
  | nil => exact .inr ⟨s, t, rfl, rfl, h⟩
  | cons a as ih =>
    have hQ' : ∀ b ∈ as, Q b := fun b hb => hQ b (List.mem_cons_of_mem _ hb)
    rcases hR s t a h (hQ a List.mem_cons_self) with ⟨h1, h2⟩ | ⟨s', t', h1, h2, h'⟩
    · exact .inl ⟨by rw [exec, h1]; rfl, by rw [exec, h2]; rfl⟩
    · simpa only [exec, h1, h2, Option.bind_some] using ih h' hQ'

/-- **Progress**: when every state of an invariant can make an allowed step that
is a goal step or lowers `μ`, a goal step can be reached. -/
theorem exists_exec_goal {G : σ → α → Prop} (μ : σ → Nat)
    (hstep : ∀ s a t, I s → P s a → step s a = some t → I t)
    (hprog : ∀ s, I s → ∃ a t, P s a ∧ step s a = some t ∧ (G s a ∨ μ t < μ s))
    {s : σ} (h : I s) :
    ∃ as t a u, Along step P s (as ++ [a]) ∧ exec step s as = some t ∧ step t a = some u ∧
      G t a := by
  induction hn : μ s using Nat.strongRecOn generalizing s with
  | _ n ih =>
    obtain ⟨a, t, hP, hs, hG | hlt⟩ := hprog s h
    · exact ⟨[], s, a, t, ⟨hP, fun _ _ => trivial⟩, rfl, hs, hG⟩
    · obtain ⟨as, v, b, u, hA, hv, hb, hG⟩ := ih (μ t) (hn ▸ hlt) (hstep s a t h hP hs) rfl
      refine ⟨a :: as, v, b, u, ⟨hP, fun w hw => ?_⟩, ?_, hb, hG⟩
      · rw [hs] at hw
        cases hw
        exact hA
      · exact exec_cons_eq_some.mpr ⟨t, hs, hv⟩

/-- When every state of an invariant has come to `G` or can make an allowed step that lowers `μ`,
`G` can be come to. -/
theorem exists_exec_state {G : σ → Prop} (μ : σ → Nat)
    (hstep : ∀ s a t, I s → P s a → step s a = some t → I t)
    (hprog : ∀ s, I s → G s ∨ ∃ a t, P s a ∧ step s a = some t ∧ μ t < μ s) {s : σ} (h : I s) :
    ∃ as t, Along step P s as ∧ exec step s as = some t ∧ I t ∧ G t := by
  induction hn : μ s using Nat.strongRecOn generalizing s with
  | _ n ih =>
    rcases hprog s h with hG | ⟨a, t, hP, hs, hlt⟩
    · exact ⟨[], s, trivial, rfl, h, hG⟩
    · obtain ⟨as, u, hA, hu, hI, hG⟩ := ih (μ t) (hn ▸ hlt) (hstep s a t h hP hs) rfl
      refine ⟨a :: as, u, ⟨hP, fun w hw => ?_⟩, exec_cons_eq_some.mpr ⟨t, hs, hu⟩, hI, hG⟩
      rw [hs] at hw
      cases hw
      exact hA

/-- A run whose steps lower `μ`, but for those marked by `q`, after which it is at most `M`. -/
theorem exec_length_le_of_marked (μ : σ → Nat) (q : α → Bool) (M : Nat)
    (hstep : ∀ s a t, I s → P s a → step s a = some t → I t)
    (hlt : ∀ s a t, I s → P s a → q a = false → step s a = some t → μ t < μ s)
    (hle : ∀ s a t, I s → P s a → q a = true → step s a = some t → μ t ≤ M) {s t : σ}
    {as : List α} (h0 : I s) (hP : Along step P s as) (h : exec step s as = some t) :
    as.length + μ t ≤ μ s + (M + 1) * as.countP q := by
  induction as generalizing s with
  | nil =>
    cases h
    simp
  | cons a as ih =>
    obtain ⟨u, hu, h⟩ := exec_cons_eq_some.mp h
    have hrest := ih (hstep s a u h0 hP.1 hu) (hP.2 u hu) h
    rw [List.length_cons]
    cases hq : q a with
    | false =>
      have := hlt s a u h0 hP.1 hq hu
      rw [List.countP_cons_of_neg (by simp [hq])]
      omega
    | true =>
      have := hle s a u h0 hP.1 hq hu
      rw [List.countP_cons_of_pos hq, Nat.mul_add, Nat.mul_one]
      omega

/-- **Bounded waiting**: a run whose steps all lower `μ` is no longer than `μ` at its start. -/
theorem exec_length_le (μ : σ → Nat)
    (hstep : ∀ s a t, I s → P s a → step s a = some t → I t)
    (hlt : ∀ s a t, I s → P s a → step s a = some t → μ t < μ s) {s t : σ} {as : List α}
    (h0 : I s) (hP : Along step P s as) (h : exec step s as = some t) :
    as.length + μ t ≤ μ s := by
  have := exec_length_le_of_marked μ (fun _ => false) 0 hstep
    (fun s a t hI ha _ hs => hlt s a t hI ha hs) (by simp) h0 hP h
  simpa using this

/-! ## Machines that answer calls -/

section Answer

variable {β : Type*} {call : σ → α → Option (σ × β)} {call' : τ → α → Option (τ × β)}

/-- The answers to a sequence of calls, up to the first that gets none. -/
def answers (call : σ → α → Option (σ × β)) : σ → List α → List (Option β)
  | _, [] => []
  | s, a :: as =>
    match call s a with
    | some (t, b) => some b :: answers call t as
    | none => [none]

/-- Two calls that give the same answer, or none, and lead to related states. -/
inductive Agree (R : σ → τ → Prop) : Option (σ × β) → Option (τ × β) → Prop where
  | none : Agree R none none
  | some {s : σ} {t : τ} {b : β} (h : R s t) : Agree R (some (s, b)) (some (t, b))

theorem Agree.symm {R : σ → τ → Prop} {x : Option (σ × β)} {y : Option (τ × β)}
    (h : Agree R x y) : Agree (fun t s => R s t) y x := by
  cases h with
  | none => exact .none
  | some h => exact .some h

theorem answers_eq_of_related {R : σ → τ → Prop} {Q : α → Prop}
    (hR : ∀ s t a, R s t → Q a → Agree R (call s a) (call' t a)) {s : σ} {t : τ} {as : List α}
    (h : R s t) (hQ : ∀ a ∈ as, Q a) : answers call s as = answers call' t as := by
  induction as generalizing s t with
  | nil => rfl
  | cons a as ih =>
    have hag := hR s t a h (hQ a List.mem_cons_self)
    unfold answers
    generalize call s a = x at hag ⊢
    generalize call' t a = y at hag ⊢
    cases hag with
    | none => rfl
    | some h' => exact congrArg _ (ih h' fun b hb => hQ b (List.mem_cons_of_mem _ hb))

variable [DecidableEq β]

/-- A call together with the answer it gets. -/
def answer (call : σ → α → Option (σ × β)) (s : σ) (e : α × β) : Option σ :=
  match call s e.1 with
  | some (t, b) => if b = e.2 then some t else none
  | none => none

@[simp] theorem answer_eq_some {s t : σ} {a : α} {b : β} :
    answer call s (a, b) = some t ↔ call s a = some (t, b) := by
  unfold answer
  split
  · next t' b' h => simp [h, and_comm]
  · next h => simp [h]

end Answer

end Lts
