import Simulith.Driver.Gpio
import Simulith.Driver.Units
import Simulith.Lts.Latest
import Mathlib.Logic.Function.Iterate

/-!
# GPIO pins as registers

`Register es mode level` reads a pin's mode and level off the calls made to
it: an input stays at what its pull resistor gives, an output is at the level
last set, flipped by each toggle since. `Does` lists what a call can do to a
pin, and `registered` carries the reading along a run (`gpio_register`).
-/

namespace Simulith

open Lts

/-- A port, a pin and a call, with the result. -/
abbrev GpioEvent := ((UInt8 × UInt8) × GpioCall) × Result

def GpioPins.zero : GpioPins := fun _ => .zero

def GpioPins.step : GpioPins → GpioEvent → Option GpioPins :=
  answer fun pins c => c.2.run c.1.1 c.1.2 pins

/-- The calls of a run that name pin `k`. -/
def GpioPins.on (k : Fin gpioMaxPorts × Fin gpioMaxPins) (es : List GpioEvent) : List GpioEvent :=
  Units.on (fun c : (UInt8 × UInt8) × GpioCall => pinIndex c.1.1 c.1.2) k es

namespace GpioPin

def IsOutput (mode : UInt32) : Prop := mode = gpioModeOutput ∨ mode = gpioModeOutputOd

instance (mode : UInt32) : Decidable (IsOutput mode) := inferInstanceAs (Decidable (_ ∨ _))

/-- `!level`. -/
def flip (level : UInt8) : UInt8 := if level = 0 then 1 else 0

/-! ## The history of a pin -/

/-- The mode in which a successful init opens the pin. -/
def openedAs : GpioEvent → Option UInt32
  | ((_, .init (some config)), r) => if r.ret = 0 then some config.mode else none
  | _ => none

/-- The level a successful init or write asks for. -/
def levelSet : GpioEvent → Option UInt8
  | ((_, .init (some config)), r) => if r.ret = 0 then some config.initialState else none
  | ((_, .write value), r) => if r.ret = 0 then some value else none
  | _ => none

/-- A successful toggle. -/
def toggled : GpioEvent → Bool
  | ((_, .toggle), r) => r.ret = 0
  | _ => false

/-- What the calls `es` to a pin make of it. -/
structure Register (es : List GpioEvent) (mode : UInt32) (level : UInt8) : Prop where
  opened : latest openedAs es = some mode
  level_eq : level = 0 ∨ level = 1
  input : ¬ IsOutput mode → level = if mode = gpioModeInputPullup then 1 else 0
  output : IsOutput mode → ∃ base, latest levelSet es = some base ∧
    level = flip^[(since levelSet es).countP toggled] base

/-! ## What a call does to a pin -/

/-- What a call can do to a pin, and what it returns. -/
inductive Does (pin : GpioPin) : GpioCall → GpioPin → Result → Prop where
  | fail {c : GpioCall} {out : Buffer} : Does pin c pin (.fail out)
  | init (config : GpioConfig) (hclosed : pin.initialized = false)
    (hv : isValidPinConfig (some config) = true) :
    Does pin (.init (some config))
      ⟨true, config.mode, if IsOutput config.mode then config.initialState
        else if config.mode = gpioModeInputPullup then 1 else 0⟩ (.plain 0 .absent)
  | write (value : UInt8) (hopen : pin.initialized = true) (hm : IsOutput pin.mode)
    (hv : value ≤ 1) : Does pin (.write value) { pin with state := value } (.plain 0 .absent)
  | read (value : UInt8) (hopen : pin.initialized = true) :
    Does pin (.read (some value)) pin (.plain 0 (.byte pin.state))
  | toggle (hopen : pin.initialized = true) (hm : IsOutput pin.mode) :
    Does pin .toggle { pin with state := flip pin.state } (.plain 0 .absent)
  | close : Does pin .close { pin with initialized := false } (.plain 0 .absent)

variable {pin pin' : GpioPin} {c : GpioCall} {r : Result} {es : List GpioEvent} {e : GpioEvent}
  {mode : UInt32} {level : UInt8}

theorem not_isOutput_iff : mode ≠ gpioModeOutput ∧ mode ≠ gpioModeOutputOd ↔ ¬ IsOutput mode :=
  not_or.symm

theorem does (h : c.body pin = some (pin', r)) : Does pin c pin' r := by
  cases c with
  | init config =>
    simp only [GpioCall.body, GpioPin.init] at h
    split at h
    · cases h
      exact .fail
    · next hv =>
      split at h
      · cases h
        exact .fail
      · next hc =>
        obtain ⟨config, rfl, h⟩ := Option.bind_eq_some_iff.mp h
        cases h
        exact .init config (by simpa using hc) (by simpa using hv)
  | write value =>
    simp only [GpioCall.body, GpioPin.write, not_isOutput_iff] at h
    split at h
    · cases h
      exact .fail
    · next ho =>
      split at h
      · cases h
        exact .fail
      · next hm =>
        split at h
        · cases h
          exact .fail
        · next hv =>
          cases h
          exact .write value (by simpa using ho) (not_not.mp hm) (UInt8.not_lt.mp hv)
  | read value =>
    simp only [GpioCall.body, GpioPin.read] at h
    split at h
    · cases h
      exact .fail
    · next ho =>
      obtain ⟨value, rfl, h⟩ := Option.bind_eq_some_iff.mp h
      cases h
      exact .read value (by simpa using ho)
  | toggle =>
    simp only [GpioCall.body, GpioPin.toggle, not_isOutput_iff] at h
    split at h
    · cases h
      exact .fail
    · next ho =>
      split at h
      · cases h
        exact .fail
      · next hm =>
        cases h
        exact .toggle (by simpa using ho) (not_not.mp hm)
  | close =>
    simp only [GpioCall.body, GpioPin.close] at h
    split at h
    · cases h
      exact .fail
    · cases h
      exact .close

/-! ## One more call -/

/-- A call that is no init, write or toggle, or fails, leaves the register as it is. -/
theorem Register.quiet (hr : Register es mode level) (ho : openedAs e = none)
    (hl : levelSet e = none) (ht : toggled e = false) : Register (es ++ [e]) mode level := by
  refine ⟨by rw [latest_snoc_none ho, hr.opened], hr.level_eq, hr.input, fun hm => ?_⟩
  obtain ⟨base, hb, hv⟩ := hr.output hm
  refine ⟨base, by rw [latest_snoc_none hl, hb], ?_⟩
  rw [since_snoc_none hl, List.countP_append, List.countP_singleton, ht]
  exact hv

theorem quiet_of_fail {i : UInt8 × UInt8} {out : Buffer} :
    openedAs ((i, c), .fail out) = none ∧ levelSet ((i, c), .fail out) = none ∧
      toggled ((i, c), .fail out) = false := by
  cases c with
  | init config => cases config <;> exact ⟨rfl, rfl, rfl⟩
  | _ => exact ⟨rfl, rfl, rfl⟩

theorem Register.flip (hr : Register es mode level) (hm : IsOutput mode) (ho : openedAs e = none)
    (hl : levelSet e = none) (ht : toggled e = true) :
    Register (es ++ [e]) mode (flip level) := by
  refine ⟨by rw [latest_snoc_none ho, hr.opened], ?_, fun hn => absurd hm hn, fun _ => ?_⟩
  · rcases hr.level_eq with rfl | rfl
    · exact .inr rfl
    · exact .inl rfl
  · obtain ⟨base, hb, hv⟩ := hr.output hm
    refine ⟨base, by rw [latest_snoc_none hl, hb], ?_⟩
    rw [since_snoc_none hl, List.countP_append, List.countP_singleton, ht, hv]
    exact (Function.iterate_succ_apply' _ _ _).symm

theorem Register.set (hl : levelSet e = some level) (ho : latest openedAs (es ++ [e]) = some mode)
    (hm : IsOutput mode) (hle : level ≤ 1) : Register (es ++ [e]) mode level := by
  refine ⟨ho, ?_, fun hn => absurd hm hn, fun _ => ⟨level, latest_snoc_some hl, ?_⟩⟩
  · rcases Nat.le_one_iff_eq_zero_or_eq_one.mp (UInt8.le_iff_toNat_le.mp hle) with h | h
    · exact .inl (UInt8.toNat_inj.mp h)
    · exact .inr (UInt8.toNat_inj.mp h)
  · rw [since_snoc_some hl]
    rfl

theorem initialState_le {config : GpioConfig} (hv : isValidPinConfig (some config) = true)
    (hm : IsOutput config.mode) : config.initialState ≤ 1 := by
  simp only [isValidPinConfig] at hv
  split at hv
  · cases hv
  · by_contra hlt
    rw [if_pos ⟨hm, UInt8.not_le.mp hlt⟩] at hv
    cases hv

theorem Register.init (es : List GpioEvent) (i : UInt8 × UInt8) {config : GpioConfig}
    (hv : isValidPinConfig (some config) = true) :
    Register (es ++ [((i, .init (some config)), .plain 0 .absent)]) config.mode
      (if IsOutput config.mode then config.initialState
        else if config.mode = gpioModeInputPullup then 1 else 0) := by
  have ho : latest openedAs (es ++ [((i, .init (some config)), .plain 0 .absent)]) =
      some config.mode := latest_snoc_some rfl
  by_cases hm : IsOutput config.mode
  · rw [if_pos hm]
    exact .set rfl ho hm (initialState_le hv hm)
  · rw [if_neg hm]
    refine ⟨ho, ?_, fun _ => rfl, fun hm' => absurd hm' hm⟩
    split
    · exact .inr rfl
    · exact .inl rfl

theorem read_ok {value : Option UInt8} (h : pin.read value = some (pin', r)) (h0 : r.ret = 0) :
    pin.initialized = true ∧ r.out = .byte pin.state := by
  cases does (c := .read value) h with
  | fail => cases h0
  | read value hopen => exact ⟨hopen, rfl⟩

theorem Register.step (hr : pin.initialized = true → Register es pin.mode pin.state)
    {i : UInt8 × UInt8} (h : c.body pin = some (pin', r)) (hopen : pin'.initialized = true) :
    Register (es ++ [((i, c), r)]) pin'.mode pin'.state := by
  cases does h with
  | fail =>
    obtain ⟨ho, hl, ht⟩ := quiet_of_fail
    exact (hr hopen).quiet ho hl ht
  | init config _ hv => exact .init es i hv
  | write value ho hm hv =>
    exact .set rfl ((latest_snoc_none rfl).trans (hr ho).opened) hm hv
  | read value ho => exact (hr ho).quiet rfl rfl rfl
  | toggle ho hm => exact (hr ho).flip hm rfl rfl rfl
  | close => cases hopen

end GpioPin

/-! ## Runs -/

namespace GpioPins

theorem step_eq : step = Units.step (fun c => pinIndex c.1.1 c.1.2) (fun c => .fail c.2.out)
    fun c => c.2.body := by
  funext pins e
  simp only [step, Units.step, GpioCall.run_eq]

/-- The run lemma: an open pin is the register that the calls to it make of it. -/
theorem register {es : List GpioEvent} {pins : GpioPins}
    (h : exec step .zero es = some pins) (k : Fin gpioMaxPorts × Fin gpioMaxPins)
    (hopen : (pins k).initialized = true) :
    GpioPin.Register (on k es) (pins k).mode (pins k).state := by
  rw [step_eq] at h
  refine exec_trace (H := fun es pin => pin.initialized = true →
    GpioPin.Register es pin.mode pin.state) (fun hopen => by cases hopen)
    (fun es pin e pin' hr hst => ?_) (Units.exec_on h k) hopen
  exact GpioPin.Register.step hr (answer_eq_some.mp hst)

end GpioPins

variable {es : List GpioEvent} {pins pins' : GpioPins} {port pin : UInt8} {value : Option UInt8}
  {r : Result}

/-- Every successful read yields the level that the register of its pin is at. -/
theorem gpio_register (h : exec GpioPins.step .zero es = some pins)
    (hr : simulithGpioRead port pin pins value = some (pins', r)) (h0 : r.ret = 0) :
    ∃ k mode level, pinIndex port pin = some k ∧ r.out = .byte level ∧
      GpioPin.Register (GpioPins.on k es) mode level := by
  rw [simulithGpioRead] at hr
  cases hk : pinIndex port pin with
  | none =>
    rw [hk] at hr
    cases hr
    cases h0
  | some k =>
    rw [hk] at hr
    obtain ⟨hopen, hout⟩ := GpioPin.read_ok (access_self hr) h0
    exact ⟨k, _, _, rfl, hout, GpioPins.register h k hopen⟩

theorem gpio_register_toggled : ∃ pins : GpioPins,
    exec GpioPins.step .zero
      [(((0, 5), .init (some ⟨3, 0⟩)), .plain 0 .absent),
        (((0, 5), .toggle), .plain 0 .absent)] = some pins ∧
    ∃ pins' r, simulithGpioRead 0 5 pins (some 7) = some (pins', r) ∧ r.ret = 0 ∧
      ∃ k mode level, pinIndex 0 5 = some k ∧ r.out = .byte level ∧
        GpioPin.Register (GpioPins.on k
          [(((0, 5), .init (some ⟨3, 0⟩)), .plain 0 .absent),
            (((0, 5), .toggle), .plain 0 .absent)]) mode level := by
  have hrun : (exec GpioPins.step .zero
      [(((0, 5), .init (some ⟨3, 0⟩)), .plain 0 .absent),
        (((0, 5), .toggle), .plain 0 .absent)]).any (fun pins => decide
      ((simulithGpioRead 0 5 pins (some 7)).any (fun u => u.2.ret == 0) = true)) = true := by
    decide
  obtain ⟨pins, h, hread⟩ := exists_exec_of_any hrun
  obtain ⟨u, hu, h0⟩ := (Option.any_eq_true _ _).mp hread
  exact ⟨pins, h, u.1, u.2, hu, beq_iff_eq.mp h0, gpio_register h hu (beq_iff_eq.mp h0)⟩

end Simulith
