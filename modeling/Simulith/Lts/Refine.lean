import Simulith.Lts.Basic

/-!
# Refinement

`trace step obs s as` is what the run `as` from `s` shows: `obs` tells for each
step what it shows, if anything. A system simulates another whose steps show
its labels, those that show nothing leaving it where it is; then every run of
the one shows a run of the other (`exec_simulates`). What the other system
leaves out of a run leaves a part of it (`exec_part`, and `exec_sublist` where
the labels are the same).
-/

namespace Lts

variable {σ τ α β : Type*}

/-- What a run shows. -/
def trace (step : σ → α → Option σ) (obs : σ → α → Option β) : σ → List α → List β
  | _, [] => []
  | s, a :: as =>
    (obs s a).toList ++ match step s a with
      | some t => trace step obs t as
      | none => []

variable {step : σ → α → Option σ} {obs : σ → α → Option β} {P : σ → α → Prop}

theorem trace_cons {s t : σ} {a : α} {as : List α} (h : step s a = some t) :
    trace step obs s (a :: as) = (obs s a).toList ++ trace step obs t as := by
  rw [trace, h]

theorem trace_append {s t : σ} {as bs : List α} (h : exec step s as = some t) :
    trace step obs s (as ++ bs) = trace step obs s as ++ trace step obs t bs := by
  induction as generalizing s with
  | nil =>
    cases h
    rfl
  | cons a as ih =>
    obtain ⟨u, hu, h⟩ := exec_cons_eq_some.mp h
    rw [List.cons_append, trace_cons hu, trace_cons hu, ih h, List.append_assoc]

theorem trace_snoc {s t u : σ} {as : List α} {a : α} (h : exec step s as = some t)
    (ha : step t a = some u) :
    trace step obs s (as ++ [a]) = trace step obs s as ++ (obs t a).toList := by
  rw [trace_append h, trace_cons ha, trace, List.append_nil]

theorem trace_label {f : α → Option β} {s t : σ} {as : List α} (h : exec step s as = some t) :
    trace step (fun _ => f) s as = as.filterMap f := by
  induction as generalizing s with
  | nil => rfl
  | cons a as ih =>
    obtain ⟨u, hu, h⟩ := exec_cons_eq_some.mp h
    rw [trace_cons hu, ih h, List.filterMap_cons]
    cases f a <;> rfl

/-- **Simulation**: what the runs of a system show are runs of the system it refines. -/
theorem exec_simulates {step' : τ → β → Option τ} {R : σ → τ → Prop}
    (hR : ∀ s r a t, R s r → P s a → step s a = some t →
      (obs s a = none ∧ R t r) ∨ ∃ b r', obs s a = some b ∧ step' r b = some r' ∧ R t r')
    {s t : σ} {r : τ} {as : List α} (h : R s r) (hP : Along step P s as)
    (he : exec step s as = some t) :
    ∃ r', exec step' r (trace step obs s as) = some r' ∧ R t r' := by
  induction as generalizing s r with
  | nil =>
    cases he
    exact ⟨r, rfl, h⟩
  | cons a as ih =>
    obtain ⟨u, hu, he⟩ := exec_cons_eq_some.mp he
    rw [trace_cons hu]
    rcases hR s r a u h hP.1 hu with ⟨hn, h'⟩ | ⟨b, r', hb, hr', h'⟩
    · rw [hn]
      exact ih h' (hP.2 u hu) he
    · obtain ⟨r'', hr'', hR''⟩ := ih h' (hP.2 u hu) he
      rw [hb]
      exact ⟨r'', exec_cons_eq_some.mpr ⟨r', hr', hr''⟩, hR''⟩

theorem along_simulates {step' : τ → β → Option τ} {R : σ → τ → Prop} {P' : τ → β → Prop}
    (hR : ∀ s r a t, R s r → P s a → step s a = some t →
      (obs s a = none ∧ R t r) ∨ ∃ b r', obs s a = some b ∧ step' r b = some r' ∧ R t r')
    (hP' : ∀ s r a b, R s r → P s a → obs s a = some b → P' r b)
    {s t : σ} {r : τ} {as : List α} (h : R s r) (hP : Along step P s as)
    (he : exec step s as = some t) : Along step' P' r (trace step obs s as) := by
  induction as generalizing s r with
  | nil => trivial
  | cons a as ih =>
    obtain ⟨u, hu, he⟩ := exec_cons_eq_some.mp he
    rw [trace_cons hu]
    rcases hR s r a u h hP.1 hu with ⟨hn, h'⟩ | ⟨b, r', hb, hr', h'⟩
    · rw [hn]
      exact ih h' (hP.2 u hu) he
    · rw [hb]
      refine ⟨hP' s r a b h hP.1 hb, fun r'' hr'' => ?_⟩
      rw [hr'] at hr''
      cases hr''
      exact ih h' (hP.2 u hu) he

/-- **Simulation by a part of a run**: each step is the one of the other system that its label
stands for or, unless `q` marks that, leaves the other system where it is. -/
theorem exec_part {step' : τ → β → Option τ} {R : σ → τ → Prop} {K : β → Prop} {f : α → Option β}
    {q : β → Bool}
    (hR : ∀ s r a t, R s r → P s a → step s a = some t →
      ((∀ b, f a = some b → q b = false) ∧ R t r) ∨
        ∃ b, f a = some b ∧ K b ∧ ∃ r', step' r b = some r' ∧ R t r')
    {s t : σ} {r : τ} {as : List α} (h : R s r) (hP : Along step P s as)
    (he : exec step s as = some t) :
    ∃ bs r', List.Sublist bs (as.filterMap f) ∧ bs.filter q = (as.filterMap f).filter q ∧
      (∀ b ∈ bs, K b) ∧ exec step' r bs = some r' ∧ R t r' := by
  induction as generalizing s r with
  | nil =>
    cases he
    exact ⟨[], r, .slnil, rfl, by simp, rfl, h⟩
  | cons a as ih =>
    obtain ⟨u, hu, he⟩ := exec_cons_eq_some.mp he
    rcases hR s r a u h hP.1 hu with ⟨hq, h'⟩ | ⟨b, hb, hK, r', hr', h'⟩
    · obtain ⟨bs, r'', hsub, hfilter, hK, hr'', hR''⟩ := ih h' (hP.2 u hu) he
      rw [List.filterMap_cons]
      cases hf : f a with
      | none => exact ⟨bs, r'', hsub, hfilter, hK, hr'', hR''⟩
      | some b =>
        refine ⟨bs, r'', hsub.cons b, ?_, hK, hr'', hR''⟩
        rw [List.filter_cons_of_neg (by simp [hq b hf]), hfilter]
    · obtain ⟨bs, r'', hsub, hfilter, hKs, hr'', hR''⟩ := ih h' (hP.2 u hu) he
      rw [List.filterMap_cons_some hb]
      refine ⟨b :: bs, r'', hsub.cons_cons b, ?_, List.forall_mem_cons.mpr ⟨hK, hKs⟩,
        exec_cons_eq_some.mpr ⟨r', hr', hr''⟩, hR''⟩
      rw [List.filter_cons, List.filter_cons, hfilter]

theorem exec_sublist {step' : τ → α → Option τ} {R : σ → τ → Prop} {K : α → Prop} {q : α → Bool}
    (hR : ∀ s r a t, R s r → P s a → step s a = some t →
      (q a = false ∧ R t r) ∨ (K a ∧ ∃ r', step' r a = some r' ∧ R t r'))
    {s t : σ} {r : τ} {as : List α} (h : R s r) (hP : Along step P s as)
    (he : exec step s as = some t) :
    ∃ bs r', List.Sublist bs as ∧ bs.filter q = as.filter q ∧ (∀ b ∈ bs, K b) ∧
      exec step' r bs = some r' ∧ R t r' := by
  have hpart : ∃ bs r', List.Sublist bs (as.filterMap some) ∧
      bs.filter q = (as.filterMap some).filter q ∧ (∀ b ∈ bs, K b) ∧ exec step' r bs = some r' ∧
        R t r' :=
    exec_part (fun s r a t hsr ha hs => (hR s r a t hsr ha hs).imp
      (fun ⟨hq, h'⟩ => ⟨fun b hb => by cases hb; exact hq, h'⟩)
      fun ⟨hK, h'⟩ => ⟨a, rfl, hK, h'⟩) h hP he
  rwa [List.filterMap_some] at hpart

end Lts
