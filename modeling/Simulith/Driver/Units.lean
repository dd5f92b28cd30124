import Simulith.Cells.Basic
import Simulith.Driver.Basic

/-!
# One unit of a driver

The calls to a driver's array are a system of cells (`Units.step_eq`), so a
run of them is one run of each unit, over the calls that name it
(`Units.exec_on`): what holds of the runs of one unit holds of every unit of
the array.
-/

namespace Simulith

open Lts Cells

namespace Units

variable {κ U C : Type*} [DecidableEq κ] (index : C → Option κ) (rejected : C → Result)
  (body : C → U → Option (U × Result))

/-- A call to the array, with its result. -/
def step : (κ → U) → C × Result → Option (κ → U) :=
  answer fun units c => access (index c) (rejected c) (body c) units

/-- A call to one unit, with its result. -/
def unitStep : U → C × Result → Option U := answer fun u c => body c u

/-- The array as a system of units. -/
def cells : System (κ → U) (fun _ : κ => U) (C × Result) where
  get units := units
  put units k u := Function.update units k u
  get_put _ _ _ := Function.update_self ..
  get_put_of_ne _ _ _ _ h := Function.update_of_ne h ..
  ext _ _ h := funext h
  target e := index e.1
  idle e := e.2 = rejected e.1
  act _ := unitStep body

theorem step_eq : step index rejected body = (cells index rejected body).step := by
  funext units ⟨c, r⟩
  cases h : index c with
  | none =>
    have ht : (cells index rejected body).target (c, r) = none := h
    simp only [step, answer, access, h, System.step, ht]
    simp [cells, eq_comm]
  | some k =>
    have ht : (cells index rejected body).target (c, r) = some k := h
    simp only [step, answer, access, h, System.step, ht]
    simp only [cells, unitStep, answer]
    cases hb : body c (units k) with
    | none => simp
    | some u => by_cases hr : u.2 = r <;> simp [hr]

/-- The calls that name unit `k`. -/
def on (k : κ) (es : List (C × Result)) : List (C × Result) :=
  es.filter fun e => index e.1 = some k

variable {index rejected body} {units units' : κ → U} {es : List (C × Result)}

/-- A call acts on the unit it names, and on no other. -/
theorem step_cases {e : C × Result} (h : step index rejected body units e = some units') (k : κ) :
    (index e.1 = some k ∧ body e.1 (units k) = some (units' k, e.2)) ∨
      (index e.1 ≠ some k ∧ units' k = units k) := by
  have hcall := answer_eq_some.mp h
  by_cases hk : index e.1 = some k
  · rw [hk] at hcall
    exact .inl ⟨hk, access_self hcall⟩
  · exact .inr ⟨hk, access_of_ne hcall hk⟩

theorem exec_on (h : exec (step index rejected body) units es = some units') (k : κ) :
    exec (unitStep body) (units k) (on index k es) = some (units' k) := by
  rw [step_eq] at h
  exact (System.exec_eq_some_iff.mp h).2 k

end Units

end Simulith
