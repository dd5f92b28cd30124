import Simulith.Lts.Basic

/-!
# Systems made of independent cells

The state of such a system is a family of cells, read by `get` and written by
`put`. Each label addresses one cell and acts on it alone; a label that
addresses none is refused, or changes nothing, whatever the state.
`exec_eq_some_iff` takes a run apart into one run for each cell, over the
labels that address it; `exec_project` and `exec_congr` are what
noninterference and the exchange of neighbouring labels come down to.
-/

/-- A state that consists of the cells `ν k`. -/
structure Cells (σ : Type*) {κ : Type*} (ν : κ → Type*) where
  get : σ → (k : κ) → ν k
  put : σ → (k : κ) → ν k → σ
  get_put : ∀ s k v, get (put s k v) k = v
  get_put_of_ne : ∀ s k v j, j ≠ k → get (put s k v) j = get s j
  ext : ∀ s t, (∀ k, get s k = get t k) → s = t

namespace Cells

/-- Labels that act on one cell each. -/
structure System (σ : Type*) {κ : Type*} (ν : κ → Type*) (α : Type*) extends Cells σ ν where
  target : α → Option κ
  /-- Whether a label that addresses no cell is possible. -/
  idle : α → Bool
  act : (k : κ) → ν k → α → Option (ν k)

namespace System

open Lts

variable {σ κ α : Type*} {ν : κ → Type*} (S : System σ ν α)

def step (s : σ) (a : α) : Option σ :=
  match S.target a with
  | some k => (S.act k (S.get s k) a).map (S.put s k)
  | none => if S.idle a then some s else none

variable {S} {s t : σ} {a : α} {k : κ} {as : List α}

theorem step_of_target (h : S.target a = some k) :
    S.step s a = some t ↔ ∃ v, S.act k (S.get s k) a = some v ∧ S.put s k v = t := by
  simp [step, h, Option.map_eq_some_iff]

theorem step_of_idle (h : S.target a = none) :
    S.step s a = some t ↔ S.idle a = true ∧ s = t := by
  simp [step, h]

variable [DecidableEq κ]

/-- The labels that address `k`. -/
def only (S : System σ ν α) (k : κ) (as : List α) : List α :=
  as.filter fun a => S.target a = some k

theorem only_cons_self (h : S.target a = some k) : S.only k (a :: as) = a :: S.only k as := by
  simp [only, h]

theorem only_cons_of_ne (h : S.target a ≠ some k) : S.only k (a :: as) = S.only k as := by
  simp [only, h]

theorem only_eq_self (h : ∀ a ∈ as, S.target a = some k) : S.only k as = as :=
  List.filter_eq_self.mpr fun a ha => decide_eq_true (h a ha)

theorem only_eq_nil {j : κ} (h : ∀ a ∈ as, S.target a = some k) (hj : j ≠ k) :
    S.only j as = [] := by
  refine List.filter_eq_nil_iff.mpr fun a ha he => hj ?_
  have : some k = some j := (h a ha).symm.trans (of_decide_eq_true he)
  exact (Option.some.inj this).symm

/-- A run of the system is one run of each cell over the labels that address it. -/
theorem exec_eq_some_iff : exec S.step s as = some t ↔
    (∀ a ∈ as, S.target a = none → S.idle a = true) ∧
      ∀ k, exec (S.act k) (S.get s k) (S.only k as) = some (S.get t k) := by
  induction as generalizing s with
  | nil =>
    refine ⟨fun h => ?_, fun h => ?_⟩
    · cases h
      exact ⟨by simp, fun k => rfl⟩
    · exact congrArg some (S.ext s t fun k => Option.some.inj (h.2 k))
  | cons a as ih =>
    rw [exec_cons_eq_some]
    cases ha : S.target a with
    | none =>
      have honly : ∀ k, S.only k (a :: as) = S.only k as := fun k =>
        only_cons_of_ne (by simp [ha])
      simp only [step_of_idle ha, honly, List.forall_mem_cons, ha, true_implies]
      constructor
      · rintro ⟨u, ⟨hi, rfl⟩, hu⟩
        exact ⟨⟨hi, (ih.mp hu).1⟩, (ih.mp hu).2⟩
      · rintro ⟨⟨hi, hall⟩, hk⟩
        exact ⟨s, ⟨hi, rfl⟩, ih.mpr ⟨hall, hk⟩⟩
    | some k =>
      have hne : ∀ j, j ≠ k → S.only j (a :: as) = S.only j as := fun j hj =>
        only_cons_of_ne (by simpa [ha] using hj.symm)
      simp only [step_of_target ha, List.forall_mem_cons, ha, reduceCtorEq, false_implies,
        true_and]
      constructor
      · rintro ⟨u, ⟨v, hv, rfl⟩, hu⟩
        obtain ⟨hall, hk⟩ := ih.mp hu
        refine ⟨hall, fun j => ?_⟩
        by_cases hj : j = k
        · subst hj
          rw [only_cons_self ha, exec_cons_eq_some]
          exact ⟨v, hv, by simpa only [S.get_put] using hk j⟩
        · rw [hne j hj]
          simpa only [S.get_put_of_ne s k v j hj] using hk j
      · rintro ⟨hall, hk⟩
        have hself := hk k
        rw [only_cons_self ha, exec_cons_eq_some] at hself
        obtain ⟨v, hv, hrest⟩ := hself
        refine ⟨S.put s k v, ⟨v, hv, rfl⟩, ih.mpr ⟨hall, fun j => ?_⟩⟩
        by_cases hj : j = k
        · subst hj
          rwa [S.get_put]
        · rw [S.get_put_of_ne s k v j hj, ← hne j hj]
          exact hk j

theorem exec_forall {I : (k : κ) → ν k → Prop}
    (hact : ∀ k v a w, I k v → S.act k v a = some w → I k w) (h0 : ∀ k, I k (S.get s k))
    (h : exec S.step s as = some t) (k : κ) : I k (S.get t k) :=
  exec_preserves (hact k) (h0 k) ((exec_eq_some_iff.mp h).2 k)

/-- **Noninterference**: the labels that address `k` are a run of their own, which leaves `k` as
the whole run does and every other cell as it was. -/
theorem exec_project (h : exec S.step s as = some t) (k : κ) :
    ∃ u, exec S.step s (S.only k as) = some u ∧ S.get u k = S.get t k ∧
      ∀ j, j ≠ k → S.get u j = S.get s j := by
  have honly : ∀ a ∈ S.only k as, S.target a = some k := fun a ha =>
    of_decide_eq_true (List.mem_filter.mp ha).2
  refine ⟨S.put s k (S.get t k), exec_eq_some_iff.mpr ⟨fun a ha hn => ?_, fun j => ?_⟩,
    S.get_put s k _, S.get_put_of_ne s k _⟩
  · rw [honly a ha] at hn
    cases hn
  · by_cases hj : j = k
    · subst hj
      rw [only_eq_self honly, S.get_put]
      exact (exec_eq_some_iff.mp h).2 j
    · rw [only_eq_nil honly hj, S.get_put_of_ne s k _ j hj]
      rfl

/-- A run depends on the order of the labels only within each cell. -/
theorem exec_congr {bs : List α} (hk : ∀ k, S.only k as = S.only k bs)
    (hidle : ∀ a, S.target a = none → (a ∈ as ↔ a ∈ bs)) :
    exec S.step s as = exec S.step s bs := by
  refine Option.ext fun t => ?_
  rw [exec_eq_some_iff, exec_eq_some_iff]
  refine and_congr ⟨fun h a ha hn => h a ((hidle a hn).mpr ha) hn,
    fun h a ha hn => h a ((hidle a hn).mp ha) hn⟩ (forall_congr' fun k => ?_)
  rw [hk k]

theorem exec_swap {b : α} {bs : List α} (h : S.target a ≠ S.target b ∨ S.target a = none) :
    exec S.step s (as ++ a :: b :: bs) = exec S.step s (as ++ b :: a :: bs) := by
  apply exec_congr
  · intro k
    simp only [only, List.filter_append, List.filter_cons]
    by_cases ha : S.target a = some k
    · have hb : S.target b ≠ some k := by
        intro hb
        rcases h with h | h
        · exact h (ha.trans hb.symm)
        · rw [h] at ha
          cases ha
      simp [ha, hb]
    · simp [ha]
  · intro c _
    simp [or_left_comm]

end System

end Cells
