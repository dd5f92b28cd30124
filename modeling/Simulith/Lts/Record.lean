import Simulith.Lts.Basic

/-!
# Systems with a record of their steps

`recorded step record` runs beside a system a record that each step adds to.
The record restricts nothing (`exists_exec_recorded`), and what is proved of
the pair holds of the system's own runs (`exec_recorded_fst`).
-/

namespace Lts

variable {σ Λ α : Type*}

/-- `record s a t l`: the record after the step by `a` from `s` to `t`. -/
def recorded (step : σ → α → Option σ) (record : σ → α → σ → Λ → Λ) (x : σ × Λ) (a : α) :
    Option (σ × Λ) :=
  (step x.1 a).map fun t => (t, record x.1 a t x.2)

variable {step : σ → α → Option σ} {record : σ → α → σ → Λ → Λ} {x y : σ × Λ} {a : α}
  {as : List α}

theorem recorded_eq_some : recorded step record x a = some y ↔
    step x.1 a = some y.1 ∧ y.2 = record x.1 a y.1 x.2 := by
  obtain ⟨t, l⟩ := y
  constructor
  · intro h
    obtain ⟨u, hu, h⟩ := Option.map_eq_some_iff.mp h
    cases h
    exact ⟨hu, rfl⟩
  · rintro ⟨h, hl⟩
    exact Option.map_eq_some_iff.mpr ⟨t, h, congrArg (Prod.mk t) hl.symm⟩

theorem exec_recorded_fst (h : exec (recorded step record) x as = some y) :
    exec step x.1 as = some y.1 := by
  induction as generalizing x with
  | nil =>
    cases h
    rfl
  | cons a as ih =>
    obtain ⟨z, hz, h⟩ := exec_cons_eq_some.mp h
    exact exec_cons_eq_some.mpr ⟨z.1, (recorded_eq_some.mp hz).1, ih h⟩

theorem exists_exec_recorded {t : σ} (h : exec step x.1 as = some t) :
    ∃ l, exec (recorded step record) x as = some (t, l) := by
  induction as generalizing x with
  | nil =>
    cases h
    exact ⟨x.2, rfl⟩
  | cons a as ih =>
    obtain ⟨u, hu, h⟩ := exec_cons_eq_some.mp h
    obtain ⟨l, hl⟩ := ih (x := (u, record x.1 a u x.2)) h
    exact ⟨l, exec_cons_eq_some.mpr ⟨_, recorded_eq_some.mpr ⟨hu, rfl⟩, hl⟩⟩

end Lts
