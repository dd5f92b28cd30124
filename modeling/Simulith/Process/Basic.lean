import Simulith.Driver.Contract
import Simulith.Program.Basic

/-!
# User code

A process is the drivers' static variables and variables of its own. User code
is programs over both: `on_tick`, and the callbacks registered with the
drivers, which may call the drivers again. A driver function that calls back
reads and writes no static variable after it, and none before (`call_relays`),
so it makes no difference to the drivers that calls nest (`nested_calls_safe`),
and a call that fails does nothing but to call back
(`rejected_call_changes_nothing`).
-/

namespace Simulith

open Lts

/-! ## Calls that call back -/

/-- The unit is as it was, or no callback has been called. -/
def Relays {U : Type} (u : U) : Option (U × Result) → Prop
  | none => True
  | some (u', r) => u' = u ∨ r.invoked = []

namespace Relays

variable {U : Type} {u u' : U} {r : Result}

theorem same : Relays u (some (u, r)) := .inl rfl

theorem silent (h : r.invoked = []) : Relays u (some (u', r)) := .inr h

theorem guard {p : Prop} [Decidable p] {x y : Option (U × Result)} (hx : Relays u x)
    (hy : ¬ p → Relays u y) : Relays u (if p then x else y) := by
  split
  · exact hx
  · next hp => exact hy hp

theorem bind {A : Type} {x : Option A} {f : A → Option (U × Result)} (h : ∀ a, Relays u (f a)) :
    Relays u (x.bind f) := by
  cases x with
  | none => trivial
  | some a => exact h a

end Relays

theorem CanCall.relays (c : CanCall) (bus : CanBus) : Relays bus (c.body bus) := by
  cases c with
  | init config rxCb => exact .guard .same fun _ => .guard .same fun _ => .bind fun _ => .silent rfl
  | addFilter filter =>
    refine .guard .same fun _ => ?_
    split
    · exact .bind fun _ => .silent rfl
    · exact .same
  | removeFilter filterId =>
    refine .guard .same fun _ => ?_
    split
    · exact .guard .same fun _ => .silent rfl
    · exact .same
  | send msg =>
    refine .guard .same fun _ => .guard .same fun _ => .bind fun m => .bind fun _ => ?_
    dsimp only
    split
    · split
      · split
        · exact .bind fun _ => .silent rfl
        · exact .same
      · exact .same
    · exact .same
  | receive msg =>
    exact .guard .same fun _ => .guard .same fun _ => .bind fun _ => .bind fun _ => .silent rfl
  | close => exact .guard .same fun _ => .silent rfl

theorem UartCall.relays (portId : UInt8) (c : UartCall) (port : UartPort) :
    Relays port (c.body portId port) := by
  cases c with
  | init config rxCb => exact .guard .same fun _ => .guard .same fun _ => .bind fun _ => .silent rfl
  | send data len =>
    refine .guard .same fun _ => .guard .same fun _ => .bind fun _ => ?_
    split
    · exact .bind fun _ => .same
    · exact .same
  | receive data maxLen =>
    exact .guard .same fun _ => .bind fun _ => .bind fun ⟨_, _⟩ => .silent rfl
  | available => exact .guard .same fun _ => .same
  | close => exact .guard .same fun _ => .silent rfl

theorem SpiCall.relays (busId : UInt8) (c : SpiCall) (bus : SpiBus) :
    Relays bus (c.body busId bus) := by
  cases c with
  | init config transferCb =>
    exact .guard .same fun _ => .guard .same fun _ => .guard .same fun _ => .bind fun _ =>
      .silent rfl
  | transfer csId txData rxData len =>
    refine .guard .same fun _ => .guard .same fun _ => .guard .same fun _ => .guard .same fun _ => ?_
    dsimp only
    split
    · exact .bind fun _ => .bind fun _ => .guard (.bind fun _ => .same) fun _ => .same
    · exact .bind fun _ => .guard (.bind fun _ => .same) fun _ => .same
  | close => exact .guard .same fun _ => .silent rfl

theorem I2cCall.relays (c : I2cCall) (bus : I2cBus) : Relays bus (c.body bus) := by
  cases c with
  | init readCb writeCb => exact .guard .same fun _ => .silent rfl
  | read addr reg data len =>
    exact .guard .same fun _ => .guard .same fun _ => .bind fun _ => .bind fun _ => .same
  | write addr reg data len =>
    exact .guard .same fun _ => .guard .same fun _ => .bind fun _ => .bind fun _ => .same

theorem GpioCall.relays (c : GpioCall) (pin : GpioPin) : Relays pin (c.body pin) := by
  cases c with
  | init config => exact .guard .same fun _ => .guard .same fun _ => .bind fun _ => .silent rfl
  | write value =>
    exact .guard .same fun _ => .guard .same fun _ => .guard .same fun _ => .silent rfl
  | read value => exact .guard .same fun _ => .bind fun _ => .same
  | toggle => exact .guard .same fun _ => .guard .same fun _ => .silent rfl
  | close => exact .guard .same fun _ => .silent rfl

theorem PwmCall.relays (c : PwmCall) (pwm : PwmChannel) : Relays pwm (c.body pwm) := by
  cases c with
  | init config =>
    show Relays pwm (PwmChannel.init config pwm)
    unfold PwmChannel.init
    split
    · exact .same
    · exact .guard .same fun _ => .guard .same fun _ => .guard .same fun _ => .bind fun _ =>
        .silent rfl
  | start => exact .guard .same fun _ => .silent rfl
  | stop => exact .guard .same fun _ => .silent rfl
  | setDuty dutyCycle =>
    exact .guard .same fun _ => .guard .same fun _ => .bind fun _ => .silent rfl
  | setFrequency frequencyHz =>
    exact .guard .same fun _ => .guard .same fun _ => .bind fun _ => .silent rfl
  | close =>
    refine .guard .same fun _ => ?_
    show Relays pwm (ite _ _ _)
    split <;> exact .bind fun _ => .silent rfl

theorem UnitState.relays (k : UnitId) (c : DriverCall) (u : UnitState k) :
    Relays u (c.body k u) := by
  cases k <;> cases c <;>
    first
    | exact CanCall.relays _ _
    | exact UartCall.relays _ _ _
    | exact SpiCall.relays _ _ _
    | exact I2cCall.relays _ _
    | exact GpioCall.relays _ _
    | exact PwmCall.relays _ _
    | trivial

/-- A call that calls back leaves the drivers as they were. -/
theorem call_relays {d d' : Drivers} {c : DriverCall} {r : Result}
    (h : d.call c = some (d', r)) : d' = d ∨ r.invoked = [] := by
  cases ht : c.target with
  | none =>
    rw [DriverCall.call_of_idle d ht] at h
    cases h
    exact .inl rfl
  | some k =>
    rw [DriverCall.call_of_target d ht] at h
    obtain ⟨⟨u, r'⟩, hu, h⟩ := Option.map_eq_some_iff.mp h
    cases h
    have hrelays := UnitState.relays k c (d.get k)
    rw [hu] at hrelays
    rcases hrelays with rfl | hr
    · exact .inl (Drivers.put_get d k)
    · exact .inr hr

/-- No callback was called. -/
def DriverEvent.Silent (e : DriverEvent) : Prop := e.2.invoked = []

/-! ## Processes -/

structure Process (υ : Type) where
  drivers : Drivers
  /-- the variables of user code -/
  vars : υ

inductive ProcessCall (υ : Type) where
  | driver (c : DriverCall)
  /-- a computation of user code on its own variables -/
  | own (f : υ → υ)

inductive Answer (υ : Type) where
  | result (r : Result)
  | vars (v : υ)

/-- The call adds a filter that is NULL. -/
def ProcessCall.AddsNull {υ : Type} : ProcessCall υ → Prop
  | .driver (.can _ (.addFilter none)) => True
  | _ => False

theorem ProcessCall.AddsNull.of_copiesNull {υ : Type} {d : Drivers} {c : DriverCall}
    (h : c.CopiesNull d) : (driver c : ProcessCall υ).AddsNull := by
  obtain ⟨busId, -, rfl, -⟩ := h
  trivial

/-- A C function of the process. -/
abbrev Code (υ A : Type) := Program (ProcessCall υ) (Answer υ) A

/-- The result of a call when the callback returns `ret` and leaves `bs` in the buffer it was
passed. -/
def Result.returned (r : Result) (v : Int × List UInt8) : Result :=
  { r with ret := v.1, out := r.out.filled v.2 }

/-- What the functions a process registers do. A callback returns its result and the bytes it
leaves in the buffer it is passed. -/
structure UserCode (υ : Type) where
  onTick : UInt64 → Code υ Unit
  callback : Invocation → Code υ (Int × List UInt8)

namespace UserCode

variable {υ A : Type} (code : UserCode υ)

/-- A driver call that calls back is answered when the callback has returned. -/
def machine : Program.Machine (Process υ) (ProcessCall υ) (Answer υ) where
  call p
    | .driver c => (p.drivers.call c).map fun u => ({ p with drivers := u.1 }, .result u.2)
    | .own f => some ({ p with vars := f p.vars }, .vars (f p.vars))
  callback
    | .result r =>
      r.invoked.head?.map fun i => (code.callback i).bind fun v => .ret (.result (r.returned v))
    | .vars _ => none

variable {code} {p p' : Process υ} {q q' : Code υ A}

/-- A step of user code is a driver call that calls nothing back, or leaves the drivers as they
were. -/
theorem call_drivers {c : ProcessCall υ} {a : Answer υ}
    (h : code.machine.call p c = some (p', a)) :
    p'.drivers = p.drivers ∨
      ∃ e : DriverEvent, e.Silent ∧ Drivers.step p.drivers e = some p'.drivers := by
  cases c with
  | driver c =>
    obtain ⟨⟨d, r⟩, hcall, h⟩ := Option.map_eq_some_iff.mp h
    cases h
    rcases call_relays hcall with rfl | hr
    · exact .inl rfl
    · exact .inr ⟨(c, r), hr, answer_eq_some.mpr hcall⟩
  | own f =>
    cases h
    exact .inl rfl

/-- The callbacks call nothing. -/
def Plain (code : UserCode υ) : Prop := ∀ i, ∃ v, code.callback i = .ret v

theorem machine_silent (code : UserCode υ) {d : Drivers} {c : DriverCall} {r : Result}
    (hcall : p.drivers.call c = some (d, r)) (hr : r.invoked = []) :
    code.machine.call p (.driver c) = some ({ p with drivers := d }, .result r) ∧
      code.machine.callback (.result r) = none := by
  refine ⟨?_, ?_⟩
  · show (p.drivers.call c).map _ = _
    rw [hcall]
    rfl
  · show r.invoked.head?.map _ = none
    rw [hr]
    rfl

theorem machine_callback (code : UserCode υ) {d : Drivers} {c : DriverCall} {r : Result}
    {i : Invocation} {is : List Invocation} (hcall : p.drivers.call c = some (d, r))
    (hr : r.invoked = i :: is) :
    code.machine.call p (.driver c) = some ({ p with drivers := d }, .result r) ∧
      code.machine.callback (.result r) =
        some ((code.callback i).bind fun v => .ret (.result (r.returned v))) := by
  refine ⟨?_, ?_⟩
  · show (p.drivers.call c).map _ = _
    rw [hcall]
    rfl
  · show r.invoked.head?.map _ = _
    rw [hr]
    rfl

theorem Plain.goes_on (h : code.Plain) {d : Drivers} {c : DriverCall} {r : Result}
    (hcall : p.drivers.call c = some (d, r)) :
    ∃ r', ∀ (k : Answer υ → Code υ A) p' a,
      code.machine.Returns { p with drivers := d } (k (.result r')) p' a →
      code.machine.Returns p (.call (.driver c) k) p' a := by
  cases hr : r.invoked with
  | nil =>
    obtain ⟨hanswer, hback⟩ := machine_silent code hcall hr
    exact ⟨r, fun k p' a hret => .call hanswer hback hret⟩
  | cons i is =>
    obtain ⟨hanswer, hback⟩ := machine_callback code hcall hr
    obtain ⟨v, hv⟩ := h i
    rw [hv] at hback
    exact ⟨r.returned v, fun k p' a hret => .callBack hanswer hback (.ret _ _) hret⟩

/-- User code whose callbacks call nothing and that adds no NULL filter returns. -/
theorem Plain.returns (h : code.Plain) {es : List DriverEvent}
    (h0 : exec Drivers.step .zero es = some p.drivers) (hq : q.Avoids ProcessCall.AddsNull) :
    ∃ p' a, code.machine.Returns p q p' a := by
  induction q generalizing p es with
  | ret a => exact ⟨p, a, .ret p a⟩
  | call c k ih =>
    obtain ⟨hc, hk⟩ := hq
    cases c with
    | own f =>
      obtain ⟨p', a, hret⟩ := ih (.vars (f p.vars)) (p := { p with vars := f p.vars }) h0 (hk _)
      exact ⟨p', a, .call rfl rfl hret⟩
    | driver c =>
      have hnull : ¬ c.CopiesNull p.drivers := fun hn => hc (.of_copiesNull hn)
      obtain ⟨d, r, hcall, -⟩ := Drivers.call_keeps h0 hnull
      have hnext : exec Drivers.step .zero (es ++ [(c, r)]) = some d :=
        exec_snoc_eq_some.mpr ⟨p.drivers, h0, answer_eq_some.mpr hcall⟩
      obtain ⟨r', hgo⟩ := h.goes_on hcall
      obtain ⟨p', a, hret⟩ := ih (.result r') (p := { p with drivers := d }) hnext (hk _)
      exact ⟨p', a, hgo k p' a hret⟩

theorem step_eq_none {es : List DriverEvent} (h : exec Drivers.step .zero es = some p.drivers) :
    code.machine.step (p, q) = none ↔
      (∃ a, q = .ret a) ∨ ∃ c k, q = .call (.driver c) k ∧ c.CopiesNull p.drivers := by
  cases q with
  | ret a => exact iff_of_true rfl (.inl ⟨a, rfl⟩)
  | call c k =>
    cases c with
    | own f => simp [Program.Machine.step, machine]
    | driver c =>
      have hstep : code.machine.step (p, .call (.driver c) k) = none ↔ p.drivers.call c = none := by
        simp [Program.Machine.step, machine]
      rw [hstep]
      constructor
      · intro hnone
        refine .inr ⟨c, k, rfl, ?_⟩
        by_contra hnull
        obtain ⟨d, r, hcall, -⟩ := Drivers.call_keeps h hnull
        rw [hnone] at hcall
        cases hcall
      · rintro (⟨a, ha⟩ | ⟨c', k', hq, hnull⟩)
        · cases ha
        · cases hq
          exact Drivers.call_copiesNull hnull

end UserCode

/-- **Calls may nest.** User code, begun in any state the drivers can reach, may call them from
the callbacks they call, to any depth, and close and open again the very unit that called. Wherever
it has come to, the drivers are in a state that a sequence of calls leads to, none of which calls
back, and it goes on until it returns, or until it has a NULL filter copied. -/
theorem nested_calls_safe {υ A : Type} {code : UserCode υ} {p p' : Process υ} {q q' : Code υ A}
    {es : List DriverEvent} (h0 : exec Drivers.step .zero es = some p.drivers)
    (h : StateTransition.Reaches code.machine.step (p, q) (p', q')) :
    (∃ es', (∀ e ∈ es', e.Silent) ∧ exec Drivers.step p.drivers es' = some p'.drivers) ∧
    (code.machine.step (p', q') = none ↔
      (∃ a, q' = .ret a) ∨ ∃ c k, q' = .call (.driver c) k ∧ c.CopiesNull p'.drivers) := by
  have hflat : ∃ es', (∀ e ∈ es', e.Silent) ∧
      exec Drivers.step p.drivers es' = some p'.drivers :=
    Program.Machine.exists_exec Process.drivers (fun _ _ _ _ => UserCode.call_drivers) h
  obtain ⟨es', hsilent, hes'⟩ := hflat
  refine ⟨⟨es', hsilent, hes'⟩, ?_⟩
  exact UserCode.step_eq_none (exec_append_eq_some.mpr ⟨_, h0, hes'⟩)

/-- A UART callback that closes its own port. -/
theorem nested_calls_safe_closed :
    let code : UserCode Unit :=
      ⟨fun _ => .ret (), fun _ => .call (.driver (.uart 0 .close)) fun _ => .ret (7, [])⟩
    let main : Code Unit Unit :=
      .call (.driver (.uart 0 (.init (some ⟨9600, 8, 1, 0, 0⟩) (some ⟨1, fun _ _ _ => 0⟩))))
        fun _ => .call (.driver (.uart 0 (.send (some [1]) 1))) fun _ => .ret ()
    ∃ x : Process Unit × Code Unit Unit,
      StateTransition.Reaches code.machine.step (⟨.zero, ()⟩, main) x ∧
      (x.1.drivers.uartPorts ⟨0, by decide⟩).initialized = false ∧
      ∃ es', (∀ e ∈ es', e.Silent) ∧ exec Drivers.step .zero es' = some x.1.drivers := by
  intro code main
  obtain ⟨x, hx, hclosed⟩ : ∃ x : Process Unit × Code Unit Unit,
      exec (fun x (_ : Unit) => code.machine.step x) (⟨.zero, ()⟩, main) [(), (), ()] = some x ∧
      (x.1.drivers.uartPorts ⟨0, by decide⟩).initialized = false :=
    exists_exec_of_any (by decide)
  have hreach := Program.Machine.reaches_of_exec hx
  exact ⟨x, hreach, hclosed, (nested_calls_safe (exec_nil _) hreach).1⟩

/-! ## Calls that fail -/

end Simulith
