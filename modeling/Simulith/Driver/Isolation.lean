import Simulith.Driver.All

/-!
# Units do not interfere

`drivers_isolated` follows from the decomposition of a run into one run for
each unit (`Cells.System.exec_project`, `exec_swap`).
-/

namespace Simulith

open Lts Cells

/-- The calls of a run that address `k` are a run of their own, with the same results, and leave
`k` in the same state. Neighbouring calls to different units can be exchanged. -/
theorem drivers_isolated {d d' : Drivers} {es : List DriverEvent}
    (h : exec Drivers.step d es = some d') :
    (∀ k, ∃ u, exec Drivers.step d (es.filter fun e => e.1.target = some k) = some u ∧
      u.get k = d'.get k ∧ ∀ j, j ≠ k → u.get j = d.get j) ∧
    (∀ pre a b post, es = pre ++ a :: b :: post →
      a.1.target ≠ b.1.target ∨ a.1.target = none →
      exec Drivers.step d (pre ++ b :: a :: post) = some d') := by
  rw [Drivers.step_eq] at h ⊢
  constructor
  · intro k
    exact Drivers.units.exec_project h k
  · rintro pre a b post rfl hab
    rw [← h]
    exact (System.exec_swap (S := Drivers.units) hab).symm

theorem drivers_isolated_can_pwm : ∃ d',
    exec Drivers.step .zero
      [(.can 0 (.init (some ⟨500000, 75, 1⟩) none), .plain 0 .absent),
        (.pwm 3 (.init (some ⟨100, 50⟩)), .plain 0 .absent)] = some d' ∧
    exec Drivers.step .zero
      [(.pwm 3 (.init (some ⟨100, 50⟩)), .plain 0 .absent),
        (.can 0 (.init (some ⟨500000, 75, 1⟩) none), .plain 0 .absent)] = some d' := by
  have hrun : (exec Drivers.step .zero
      [(.can 0 (.init (some ⟨500000, 75, 1⟩) none), .plain 0 .absent),
        (.pwm 3 (.init (some ⟨100, 50⟩)), .plain 0 .absent)]).isSome = true := by decide
  obtain ⟨d', h⟩ := Option.isSome_iff_exists.mp hrun
  exact ⟨d', h, (drivers_isolated h).2 [] _ _ [] rfl (.inl (by decide))⟩

end Simulith
