import Simulith.Device.View
import Simulith.Process.Basic

/-!
# What user code can tell

`Device` answers each call as the drivers do, and a unit answers by what it
shows. Both are true of user code, however its calls nest: it cannot tell the
drivers from the device (`code_on_device`), and it depends on what the units
show that it addresses and leaves the others alone (`code_isolated`).
-/

namespace Simulith

open Lts

variable {υ A : Type}

/-! ## The abstract device -/

/-- User code on the abstract device, the callbacks calling the device again. -/
def UserCode.deviceMachine (code : UserCode υ) :
    Program.Machine (Device × υ) (ProcessCall υ) (Answer υ) where
  call p
    | .driver c => (p.1.call c).map fun u => ((u.1, p.2), .result u.2)
    | .own f => some ((p.1, f p.2), .vars (f p.2))
  callback := code.machine.callback

/-- The process on the drivers and on the device. -/
def Process.Shown (p : Process υ) (p' : Device × υ) : Prop :=
  (∀ k, UnitState.Shown k (p.drivers.get k) (p'.1 k)) ∧ p.vars = p'.2

theorem Process.Shown.call (code : UserCode υ) {p : Process υ} {p' : Device × υ} (h : p.Shown p')
    (c : ProcessCall υ) :
    Agree Process.Shown (code.machine.call p c) (code.deviceMachine.call p' c) := by
  obtain ⟨hunits, hvars⟩ := h
  cases c with
  | own f =>
    show Agree _ (some ({ p with vars := f p.vars }, Answer.vars (f p.vars)))
      (some ((p'.1, f p'.2), Answer.vars (f p'.2)))
    rw [hvars]
    exact .some ⟨hunits, rfl⟩
  | driver c =>
    have hcall := Drivers.agree_device hunits c
    show Agree _ ((p.drivers.call c).map _) ((p'.1.call c).map _)
    generalize p.drivers.call c = x at hcall
    generalize p'.1.call c = y at hcall
    cases hcall with
    | none => exact .none
    | some hd => exact .some ⟨hd, hvars⟩

/-- **User code cannot tell the drivers from the device.** From power-on, whatever it calls, its
callbacks included, it returns the same with the same variables on both, or on neither. -/
theorem code_on_device (code : UserCode υ) (q : Code υ A) (v v' : υ) (a : A) :
    (∃ p, p.vars = v' ∧ code.machine.Returns ⟨.zero, v⟩ q p a) ↔
      ∃ p, p.2 = v' ∧ code.deviceMachine.Returns (.closed, v) q p a := by
  have hstart : Process.Shown ⟨.zero, v⟩ (.closed, v) := ⟨UnitState.shown_zero, rfl⟩
  have havoids : ∀ {B : Type} (q : Code υ B), q.Avoids fun _ => False :=
    Program.Avoids.of_forall fun _ => id
  constructor
  · rintro ⟨p, rfl, hret⟩
    obtain ⟨p', hret', hshown⟩ := Program.Avoids.agree (Q := Process.Shown) (havoids q)
      (fun _ p _ => havoids p) rfl (fun _ _ c _ h => h.call code c) hstart hret
    exact ⟨p', hshown.2.symm, hret'⟩
  · rintro ⟨p', rfl, hret⟩
    obtain ⟨p, hret', hshown⟩ := Program.Avoids.agree
      (Q := fun p' p => Process.Shown p p') (havoids q) (fun _ p _ => havoids p) rfl
      (fun _ _ c _ h => (h.call code c).symm) hstart hret
    exact ⟨p, hshown.2, hret'⟩

/-! ## The units addressed -/

/-- A call that addresses a unit outside `U`. -/
def ProcessCall.Leaves (U : UnitId → Prop) : ProcessCall υ → Prop
  | .driver c => ∃ k, c.target = some k ∧ ¬ U k
  | .own _ => False

/-- The processes have the same variables, and their units in `U` show the same. -/
def Process.AlikeOn (U : UnitId → Prop) (p p' : Process υ) : Prop :=
  (∀ k, U k → Alike (UnitState.isOpen k) (UnitState.SameView k) (p.drivers.get k)
    (p'.drivers.get k)) ∧ p.vars = p'.vars

variable {U : UnitId → Prop} {p p' t : Process υ} {code : UserCode υ}

theorem Drivers.call_get_of_ne {d d' : Drivers} {c : DriverCall} {r : Result} {k : UnitId}
    (h : d.call c = some (d', r)) (hk : c.target ≠ some k) : d'.get k = d.get k := by
  cases hc : c.target with
  | none =>
    rw [DriverCall.call_of_idle d hc] at h
    cases h
    rfl
  | some j =>
    rw [DriverCall.call_of_target d hc] at h
    obtain ⟨u, -, h⟩ := Option.map_eq_some_iff.mp h
    cases h
    have hne : k ≠ j := by
      rintro rfl
      exact hk hc
    exact Drivers.get_put_of_ne d j u.1 k hne

theorem Process.AlikeOn.call (h : p.AlikeOn U p') {c : ProcessCall υ} (hc : ¬ c.Leaves U) :
    Agree (Process.AlikeOn U) (code.machine.call p c) (code.machine.call p' c) := by
  obtain ⟨hunits, hvars⟩ := h
  cases c with
  | own f =>
    show Agree _ (some ({ p with vars := f p.vars }, Answer.vars (f p.vars)))
      (some ({ p' with vars := f p'.vars }, Answer.vars (f p'.vars)))
    rw [hvars]
    exact .some ⟨hunits, rfl⟩
  | driver c =>
    show Agree _ ((p.drivers.call c).map _) ((p'.drivers.call c).map _)
    cases ht : c.target with
    | none =>
      rw [DriverCall.call_of_idle _ ht, DriverCall.call_of_idle _ ht]
      exact .some ⟨hunits, hvars⟩
    | some k =>
      have hU : U k := by
        by_contra hn
        exact hc ⟨k, ht, hn⟩
      have hcall := Drivers.agree_call (hunits k hU) ht
      cases hx : p.drivers.call c with
      | none =>
        rw [hx] at hcall
        generalize p'.drivers.call c = y at hcall
        cases hcall
        exact .none
      | some u =>
        rw [hx] at hcall
        generalize hy : p'.drivers.call c = y at hcall
        cases hcall with
        | some hk =>
          refine .some ⟨fun j hj => ?_, hvars⟩
          by_cases hjk : j = k
          · subst hjk
            exact hk
          · have hne : c.target ≠ some j := by
              rw [ht]
              exact fun e => hjk (Option.some.inj e).symm
            rw [Drivers.call_get_of_ne hx hne, Drivers.call_get_of_ne hy hne]
            exact hunits j hj

/-- **User code is confined to the units it addresses.** A program and the callbacks call only
units in `U`, and two processes have the same variables and units in `U` that show the same.
Wherever the program comes to in the one, it comes to in the other, their variables and these units
alike again; and all other units are as they were. -/
theorem code_isolated {q q' : Code υ A} (hq : q.Avoids (ProcessCall.Leaves U))
    (hback : ∀ i, (code.callback i).Avoids (ProcessCall.Leaves U)) (h : p.AlikeOn U p')
    (hx : StateTransition.Reaches code.machine.step (p, q) (t, q')) :
    (∀ k, ¬ U k → t.drivers.get k = p.drivers.get k) ∧
      ∃ t', StateTransition.Reaches code.machine.step (p', q) (t', q') ∧ t.AlikeOn U t' := by
  have hcallback : ∀ r b, code.machine.callback r = some b → b.Avoids (ProcessCall.Leaves U) := by
    intro r b hr
    cases r with
    | vars v => cases hr
    | result r =>
      obtain ⟨i, -, rfl⟩ := Option.map_eq_some_iff.mp hr
      exact (hback i).bind fun _ => trivial
  refine ⟨fun k hk => ?_, ?_⟩
  · refine Program.Avoids.keeps (I := fun s => s.drivers.get k = p.drivers.get k) hq hcallback
      (fun s c s' r hc hs hcall => ?_) rfl hx
    cases c with
    | own f =>
      cases hcall
      exact hs
    | driver c =>
      obtain ⟨u, hu, hcall⟩ := Option.map_eq_some_iff.mp hcall
      cases hcall
      exact (Drivers.call_get_of_ne hu fun ht => hc ⟨k, ht, hk⟩).trans hs
  · exact Program.Avoids.agree hq hcallback rfl (fun _ _ c hc h => h.call hc) h hx

/-- A program on one UART port whose callback closes it, from power-on and with all pins open. -/
theorem code_isolated_uart :
    let code : UserCode Unit :=
      ⟨fun _ => .ret (), fun _ => .call (.driver (.uart 0 .close)) fun _ => .ret (7, [])⟩
    let main : Code Unit Unit :=
      .call (.driver (.uart 0 (.init (some ⟨9600, 8, 1, 0, 0⟩) (some ⟨1, fun _ _ _ => 0⟩)))) fun _ =>
        .call (.driver (.uart 0 (.send (some [1]) 1))) fun _ => .ret ()
    let pinsOpen : Drivers := { Drivers.zero with gpioPins := fun _ => ⟨true, 1, 0⟩ }
    ∃ t t' : Process Unit, code.machine.Returns ⟨.zero, ()⟩ main t () ∧
      code.machine.Returns ⟨pinsOpen, ()⟩ main t' () ∧
      ∀ k, k ≠ .uart ⟨0, by decide⟩ → t.drivers.get k = Drivers.zero.get k := by
  intro code main pinsOpen
  have htarget : ∀ c, ¬ (ProcessCall.driver (.uart 0 c) : ProcessCall Unit).Leaves
      (· = .uart ⟨0, by decide⟩) := by
    rintro c ⟨k, hk, hne⟩
    cases hk
    exact hne rfl
  have halike : (⟨.zero, ()⟩ : Process Unit).AlikeOn (· = .uart ⟨0, by decide⟩)
      ⟨pinsOpen, ()⟩ := by
    refine ⟨?_, rfl⟩
    rintro k rfl
    exact .of_closed rfl rfl
  obtain ⟨t, hret⟩ : ∃ t, code.machine.Returns ⟨.zero, ()⟩ main t () :=
    ⟨_, .call rfl rfl (.callBack rfl rfl (.call rfl rfl (.ret _ _)) (.ret _ _))⟩
  have hmain : main.Avoids (ProcessCall.Leaves (· = .uart ⟨0, by decide⟩)) :=
    ⟨htarget _, fun _ => ⟨htarget _, fun _ => trivial⟩⟩
  have hback : ∀ i, (code.callback i).Avoids (ProcessCall.Leaves (· = .uart ⟨0, by decide⟩)) :=
    fun _ => ⟨htarget _, fun _ => trivial⟩
  obtain ⟨hframe, t', ht', -⟩ := code_isolated hmain hback halike hret
  exact ⟨t, t', hret, ht', hframe⟩

end Simulith
