import Simulith.Can.Bus
import Simulith.Driver.All
import Simulith.Pwm.Timing

/-!
# What every driver call keeps to

`Keeps` is said of the outcome of one call: it is defined, it leaves the unit
safe for the next one, a required pointer that is NULL makes it fail, and a
call that fails or calls back leaves the unit alone, and the caller's buffer to
the callback. Each driver has one lemma that goes through its functions. Only
`simulith_can_add_filter` does not check its pointer, which
`driver_null_safe_iff` says exactly.
-/

namespace Simulith

open Lts

/-- The caller's buffer, `out` before the call, is as it was, or as the one callback left it that
was called and whose result the call returned. `Answers i w`: called with `i` it returns `w.1` and
leaves the bytes `w.2`. -/
inductive Result.LeftBy (Answers : Invocation → Int × List UInt8 → Prop) (out : Buffer)
    (r : Result) : Prop where
  | silent : r.invoked = [] → r.out = out → LeftBy Answers out r
  | callback (i : Invocation) (w : Int × List UInt8) : r.invoked = [i] → Answers i w →
      r.ret = w.1 → r.out = out.filled w.2 → LeftBy Answers out r

theorem Result.LeftBy.mono {Answers Answers' : Invocation → Int × List UInt8 → Prop} {out : Buffer}
    {r : Result} (h : r.LeftBy Answers out) (hle : ∀ i w, Answers i w → Answers' i w) :
    r.LeftBy Answers' out := by
  cases h with
  | silent hi ho => exact .silent hi ho
  | callback i w hi hw hr ho => exact .callback i w hi (hle i w hw) hr ho

/-- `Answers` is what the unit's callbacks answer, `required` tells whether a required pointer is
NULL, `out` is the caller's buffer. -/
def Keeps {U : Type} (Safe : U → Prop) (Answers : U → Invocation → Int × List UInt8 → Prop)
    (required : Bool) (out : Buffer) (u : U) : Option (U × Result) → Prop
  | none => False
  | some (u', r) => Safe u' ∧ (required = true → r.ret = -1 ∧ u' = u) ∧
      (r.ret = -1 ∨ r.invoked ≠ [] → u' = u ∧ r.LeftBy (Answers u) out)

namespace Keeps

variable {U : Type} {Safe : U → Prop} {Answers : U → Invocation → Int × List UInt8 → Prop}
  {required : Bool} {out o : Buffer} {u u' : U} {n : Int}

theorem safe {r : Result} {x : Option (U × Result)} (h : Keeps Safe Answers required out u x)
    (hx : x = some (u', r)) : Safe u' := by
  subst hx
  exact h.1

theorem fail (hs : Safe u) : Keeps Safe Answers required out u (some (u, .fail out)) :=
  ⟨hs, fun _ => ⟨rfl, rfl⟩, fun _ => ⟨rfl, .silent rfl rfl⟩⟩

theorem einval (hs : Safe u) : Keeps Safe Answers required out u (some (u, .einval out)) :=
  ⟨hs, fun _ => ⟨rfl, rfl⟩, fun _ => ⟨rfl, .silent rfl rfl⟩⟩

/-- A check before the first write. -/
theorem guard {p : Prop} [Decidable p] {x y : Option (U × Result)}
    (hx : Keeps Safe Answers required out u x) (hy : ¬ p → Keeps Safe Answers required out u y) :
    Keeps Safe Answers required out u (if p then x else y) := by
  split
  · exact hx
  · next hp => exact hy hp

theorem done (hs : Safe u') (hn : n ≠ -1) :
    Keeps Safe Answers false out u (some (u', .plain n o)) := by
  refine ⟨hs, nofun, ?_⟩
  rintro (h | h)
  · exact absurd h hn
  · exact absurd rfl h

theorem passed {r : Result} (hs : Safe u) (hr : r.LeftBy (Answers u) out) :
    Keeps Safe Answers false out u (some (u, r)) :=
  ⟨hs, nofun, fun _ => ⟨rfl, hr⟩⟩

end Keeps

/-! ## CAN -/

/-- A required pointer is NULL. -/
def CanCall.requiredNull : CanCall → Bool
  | init config _ => config.isNone
  | addFilter filter => filter.isNone
  | send msg => msg.isNone
  | receive msg => msg.isNone
  | _ => false

theorem CanCall.keeps {bus : CanBus} (hs : bus.Sound) (c : CanCall)
    (hnull : c = .addFilter none → bus.initialized = true → bus.freeSlot = none) :
    Keeps CanBus.Sound (fun _ _ _ => False) c.requiredNull c.out bus (c.body bus) := by
  cases c with
  | init config rxCb =>
    refine .guard (.fail hs) fun hv => .guard (.fail hs) fun _ => ?_
    cases config with
    | none => exact absurd rfl hv
    | some config => exact .done (CanBus.opened_sound config rxCb) (by decide)
  | addFilter filter =>
    refine .guard (.fail hs) fun ho => ?_
    cases hfree : bus.freeSlot with
    | none => exact .fail hs
    | some i =>
      cases filter with
      | none =>
        have := hnull rfl (by simpa using ho)
        rw [hfree] at this
        cases this
      | some filter => exact .done ⟨hs.1, hs.2, hs.3⟩ (by omega)
  | removeFilter filterId =>
    refine .guard (.fail hs) fun _ => ?_
    split
    · exact .guard (.fail hs) fun _ => .done ⟨hs.1, hs.2, hs.3⟩ (by decide)
    · exact .fail hs
  | send msg =>
    simp only [body]
    cases hopen : bus.initialized with
    | false =>
      rw [CanBus.send_closed hopen]
      exact .fail hs
    | true =>
      cases hm : isValidMessage msg with
      | false =>
        rw [CanBus.send_invalid hm]
        exact .fail hs
      | true =>
        cases msg with
        | none => cases hm
        | some m =>
          rw [CanBus.send_valid hs hopen (isValidMessage_iff.mp hm)]
          split
          · next hstore =>
            exact .done (hs.push hstore.2 (isValidMessage_iff.mp hm)) (by decide)
          · exact .done hs (by decide)
  | receive msg =>
    simp only [body]
    cases hopen : bus.initialized with
    | false =>
      rw [CanBus.receive_closed hopen]
      exact .fail hs
    | true =>
      cases msg with
      | none =>
        rw [CanBus.receive_none]
        exact .fail hs
      | some m =>
        by_cases he : bus.rxHead = bus.rxTail
        · rw [CanBus.receive_empty hopen he]
          exact .done hs (by decide)
        · rw [CanBus.receive_some hs hopen he]
          exact .done (hs.pop he) (by decide)
  | close =>
    exact .guard (.fail hs) fun _ => .done ⟨hs.1, hs.2, hs.3⟩ (by decide)

/-! ## UART -/

def UartCall.requiredNull : UartCall → Bool
  | init config _ => config.isNone
  | send data _ => data.isNone
  | receive data _ => data.isNone
  | _ => false

/-- The read position lies in the buffer. -/
def UartPort.Safe (port : UartPort) : Prop := port.rxBufferTail.toNat < uartRxSize

/-- The callback gets nothing to fill. -/
def UartPort.Answers (port : UartPort) (i : Invocation) (w : Int × List UInt8) : Prop :=
  ∃ cb portId data len, port.rxCallback = some cb ∧ i = .uartRx cb.address portId data len ∧
    w = (cb.fn portId data len, [])

theorem UartPort.bytesAvailable_lt (port : UartPort) : port.bytesAvailable.toNat < 1024 := by
  rw [bytesAvailable, UInt64.toNat_mod]
  exact Nat.mod_lt _ (by decide)

theorem toInt_of_lt {n : UInt64} (h : n.toNat < 1024) : toInt n = n.toNat := by
  apply Int.bmod_eq_of_le_mul_two <;> omega

theorem readBytes_some (data : List UInt8) (len : Nat) : readBytes (some data) len = some () := by
  unfold readBytes
  split <;> rfl

theorem UartPort.copyOut_safe (n i : Nat) (data : List UInt8) {port : UartPort}
    (hs : port.Safe) : ∃ data' port', copyOut n i data port = some (data', port') ∧
      port'.Safe := by
  induction n generalizing i data port with
  | zero => exact ⟨data, port, rfl, hs⟩
  | succ n ih =>
    have hload : Ring.load port.rxBuffer port.rxBufferTail.toNat = some _ := Ring.load_of_lt hs
    have hs' : UartPort.Safe { port with rxBufferTail := (port.rxBufferTail + 1) % 1024 } := by
      unfold Safe
      rw [UInt64.toNat_mod]
      exact Nat.mod_lt _ (by decide)
    rw [copyOut, hload]
    exact ih _ _ hs'

theorem UartCall.keeps {port : UartPort} (hs : port.Safe) (portId : UInt8) (c : UartCall) :
    Keeps UartPort.Safe UartPort.Answers c.requiredNull c.out port (c.body portId port) := by
  cases c with
  | init config rxCb =>
    refine .guard (.fail hs) fun hv => .guard (.fail hs) fun _ => ?_
    cases config with
    | none => exact absurd rfl hv
    | some config => exact .done (show (0 : Nat) < 1024 by decide) (by decide)
  | send data len =>
    refine .guard (.fail hs) fun _ => .guard (.fail hs) fun hargs => ?_
    cases data with
    | none => exact absurd (.inl rfl) hargs
    | some data =>
      rw [readBytes_some]
      cases hcb : port.rxCallback with
      | none => exact .passed hs (.silent rfl rfl)
      | some rxCallback =>
        exact .passed hs (.callback _ _ rfl ⟨rxCallback, portId, data, len, hcb, rfl, rfl⟩ rfl rfl)
  | receive data maxLen =>
    refine .guard (.fail hs) fun hargs => ?_
    cases data with
    | none => simp at hargs
    | some data =>
      have hlt : (if port.bytesAvailable < maxLen then port.bytesAvailable else maxLen).toNat <
          1024 := by
        have := port.bytesAvailable_lt
        split
        · exact this
        · next hle =>
          rw [UInt64.lt_iff_toNat_lt] at hle
          omega
      obtain ⟨data', port', hcopy, hs'⟩ := UartPort.copyOut_safe
        (if port.bytesAvailable < maxLen then port.bytesAvailable else maxLen).toNat 0 data hs
      simp only [Option.bind_eq_bind, Option.bind_some, hcopy]
      refine .done hs' ?_
      rw [toInt_of_lt hlt]
      omega
  | available =>
    refine .guard (.fail hs) fun _ => .done hs ?_
    rw [toInt_of_lt port.bytesAvailable_lt]
    omega
  | close => exact .guard (.fail hs) fun _ => .done hs (by decide)

/-! ## SPI -/

def SpiCall.requiredNull : SpiCall → Bool
  | init config transferCb => config.isNone || transferCb.isNone
  | transfer _ txData rxData _ => txData.isNone && rxData.isNone
  | close => false

def SpiBus.Safe (bus : SpiBus) : Prop :=
  bus.initialized = true → bus.transferCallback.isSome = true

def SpiBus.Answers (bus : SpiBus) (i : Invocation) (w : Int × List UInt8) : Prop :=
  ∃ cb busId csId txData rxData len, bus.transferCallback = some cb ∧
    i = .spiTransfer cb.address busId csId txData rxData len ∧
    w = cb.fn busId csId txData rxData len

theorem SpiCall.keeps {bus : SpiBus} (hs : bus.Safe) (busId : UInt8) (c : SpiCall) :
    Keeps SpiBus.Safe SpiBus.Answers c.requiredNull c.out bus (c.body busId bus) := by
  cases c with
  | init config transferCb =>
    refine .guard (.fail hs) fun hv => .guard (.fail hs) fun hcb => .guard (.fail hs) fun _ => ?_
    cases config with
    | none => exact absurd rfl hv
    | some config =>
      cases transferCb with
      | none => exact absurd rfl hcb
      | some cb => exact .done (fun _ => rfl) (by decide)
  | transfer csId txData rxData len =>
    refine .guard (.fail hs) fun ho => .guard (.fail hs) fun _ => .guard (.fail hs) fun hdata => ?_
    have hreq : (txData.isNone && rxData.isNone) = false := by
      cases txData <;> cases rxData <;> simp_all
    rw [requiredNull, hreq]
    refine .guard (.done hs (by decide)) fun _ => ?_
    obtain ⟨cb, hcb⟩ := Option.isSome_iff_exists.mp (hs (by simpa using ho))
    rw [hcb]
    have hanswers : bus.Answers (.spiTransfer cb.address busId csId txData rxData len)
        (cb.fn busId csId txData rxData len) :=
      ⟨cb, busId, csId, txData, rxData, len, hcb, rfl, rfl⟩
    -- the log loops run only behind a pointer that is not NULL
    cases txData <;> cases rxData <;>
      simp only [readBytes_some, Option.isSome_some, Option.isSome_none, if_true,
        Bool.false_eq_true, if_false, and_true, and_false, Option.bind_eq_bind,
        Option.bind_some] <;>
      (try split) <;> exact .passed hs (.callback _ _ rfl hanswers rfl rfl)
  | close => exact .guard (.fail hs) fun _ => .done (by simp [SpiBus.Safe]) (by decide)

/-! ## I2C -/

def I2cCall.requiredNull : I2cCall → Bool
  | init readCb writeCb => readCb.isNone || writeCb.isNone
  | read _ _ data _ => data.isNone
  | write _ _ data _ => data.isNone

def I2cBus.Safe (bus : I2cBus) : Prop :=
  bus.initialized = true → bus.readCb.isSome = true ∧ bus.writeCb.isSome = true

/-- Only the read callback gets a buffer to fill. -/
def I2cBus.Answers (bus : I2cBus) (i : Invocation) (w : Int × List UInt8) : Prop :=
  (∃ cb addr reg data len, bus.readCb = some cb ∧ i = .i2cRead cb.address addr reg data len ∧
    w = cb.fn addr reg data len) ∨
  ∃ cb addr reg data len, bus.writeCb = some cb ∧ i = .i2cWrite cb.address addr reg data len ∧
    w = (cb.fn addr reg data len, [])

theorem I2cCall.keeps {bus : I2cBus} (hs : bus.Safe) (c : I2cCall) :
    Keeps I2cBus.Safe I2cBus.Answers c.requiredNull c.out bus (c.body bus) := by
  cases c with
  | init readCb writeCb =>
    refine .guard (.einval hs) fun hcbs => ?_
    cases readCb with
    | none => exact absurd (.inl rfl) hcbs
    | some readCb =>
      cases writeCb with
      | none => exact absurd (.inr rfl) hcbs
      | some writeCb => exact .done (fun _ => ⟨rfl, rfl⟩) (by decide)
  | read addr reg data len =>
    refine .guard (.einval hs) fun ho => .guard (.einval hs) fun hargs => ?_
    cases data with
    | none => exact absurd (.inl rfl) hargs
    | some data =>
      obtain ⟨cb, hcb⟩ := Option.isSome_iff_exists.mp (hs (by simpa using ho)).1
      rw [hcb]
      exact .passed hs (.callback _ _ rfl (.inl ⟨cb, addr, reg, data, len, hcb, rfl, rfl⟩) rfl rfl)
  | write addr reg data len =>
    refine .guard (.einval hs) fun ho => .guard (.einval hs) fun hargs => ?_
    cases data with
    | none => exact absurd (.inl rfl) hargs
    | some data =>
      obtain ⟨cb, hcb⟩ := Option.isSome_iff_exists.mp (hs (by simpa using ho)).2
      rw [hcb]
      exact .passed hs (.callback _ _ rfl (.inr ⟨cb, addr, reg, data, len, hcb, rfl, rfl⟩) rfl rfl)

/-! ## GPIO -/

def GpioCall.requiredNull : GpioCall → Bool
  | init config => config.isNone
  | read value => value.isNone
  | _ => false

theorem GpioCall.keeps (pin : GpioPin) (c : GpioCall) :
    Keeps (fun _ => True) (fun _ _ _ => False) c.requiredNull c.out pin (c.body pin) := by
  cases c with
  | init config =>
    refine .guard (.fail trivial) fun hv => .guard (.fail trivial) fun _ => ?_
    cases config with
    | none => exact absurd rfl hv
    | some config => exact .done trivial (by decide)
  | write value =>
    refine .guard (.fail trivial) fun _ => .guard (.fail trivial) fun _ => ?_
    exact .guard (.fail trivial) fun _ => .done trivial (by decide)
  | read value =>
    refine .guard (.fail trivial) fun hargs => ?_
    cases value with
    | none => simp at hargs
    | some value => exact .done trivial (by decide)
  | toggle =>
    refine .guard (.fail trivial) fun _ => .guard (.fail trivial) fun _ => ?_
    exact .done trivial (by decide)
  | close => exact .guard (.fail trivial) fun _ => .done trivial (by decide)

/-! ## PWM -/

def PwmCall.requiredNull : PwmCall → Bool
  | init config => config.isNone
  | _ => false

/-- The configuration is one that was accepted, so the frequency is not zero. -/
def PwmChannel.Safe (pwm : PwmChannel) : Prop := pwm.initialized = true → pwm.config.Valid

theorem PwmChannel.updateTiming_keeps {pwm pwm₀ : PwmChannel} (hv : pwm.config.Valid) :
    Keeps Safe (fun _ _ _ => False) false .absent pwm₀
      (pwm.updateTiming.bind fun p => some (p, Result.plain 0 .absent)) := by
  obtain ⟨p, hp, hc, -⟩ := updateTiming_eq hv
  rw [hp]
  refine .done (fun _ => ?_) (by decide)
  rw [hc]
  exact hv

theorem PwmCall.keeps {pwm : PwmChannel} (hs : pwm.Safe) (c : PwmCall) :
    Keeps PwmChannel.Safe (fun _ _ _ => False) c.requiredNull .absent pwm (c.body pwm) := by
  cases c with
  | init config =>
    cases config with
    | none => exact .fail hs
    | some config =>
      refine .guard (.fail hs) fun hf => .guard (.fail hs) fun hd => .guard (.fail hs) fun _ => ?_
      exact PwmChannel.updateTiming_keeps ⟨by simpa using hf, by simpa using hd⟩
  | start => exact .guard (.fail hs) fun _ => .done hs (by decide)
  | stop => exact .guard (.fail hs) fun _ => .done hs (by decide)
  | setDuty dutyCycle =>
    refine .guard (.fail hs) fun hd => .guard (.fail hs) fun ho => ?_
    exact PwmChannel.updateTiming_keeps ⟨(hs (by simpa using ho)).1, by simpa using hd⟩
  | setFrequency frequencyHz =>
    refine .guard (.fail hs) fun hf => .guard (.fail hs) fun ho => ?_
    exact PwmChannel.updateTiming_keeps ⟨by simpa using hf, (hs (by simpa using ho)).2⟩
  | close =>
    refine .guard (.fail hs) fun _ => ?_
    unfold PwmChannel.stop
    split <;> exact .done (by simp [PwmChannel.Safe]) (by decide)

/-! ## All drivers -/

def DriverCall.requiredNull : DriverCall → Bool
  | can _ c => c.requiredNull
  | uart _ c => c.requiredNull
  | spi _ c => c.requiredNull
  | i2c _ c => c.requiredNull
  | gpio _ _ c => c.requiredNull
  | pwm _ c => c.requiredNull

def UnitState.Safe : (k : UnitId) → UnitState k → Prop
  | .can _ => CanBus.Sound
  | .uart _ => UartPort.Safe
  | .spi _ => SpiBus.Safe
  | .i2c _ => I2cBus.Safe
  | .gpio _ => fun _ => True
  | .pwm _ => PwmChannel.Safe

/-- What the callbacks of a unit answer. -/
def UnitState.Answers : (k : UnitId) → UnitState k → Invocation → Int × List UInt8 → Prop
  | .uart _ => UartPort.Answers
  | .spi _ => SpiBus.Answers
  | .i2c _ => I2cBus.Answers
  | _ => fun _ _ _ => False

/-- What the callbacks answer of the unit that a call addresses. -/
def DriverCall.Answers (d : Drivers) (c : DriverCall) (i : Invocation) (w : Int × List UInt8) :
    Prop :=
  ∃ k, c.target = some k ∧ UnitState.Answers k (d.get k) i w

/-- `simulith_can_add_filter` is about to copy a filter from NULL. -/
def DriverCall.CopiesNull (d : Drivers) (c : DriverCall) : Prop :=
  ∃ busId k, c = can busId (.addFilter none) ∧ unitIndex maxCanBuses busId = some k ∧
    (d.canBuses k).initialized = true ∧ ∃ i, ((d.canBuses k).filters i).active = false

theorem CanBus.freeSlot_eq_none_iff {bus : CanBus} :
    bus.freeSlot = none ↔ ∀ i, (bus.filters i).active = true := by
  simp [freeSlot, List.find?_eq_none]

theorem UnitState.keeps {d : Drivers} {k : UnitId} (hs : Safe k (d.get k)) {c : DriverCall}
    (hc : c.target = some k) (hnull : ¬ c.CopiesNull d) :
    Keeps (Safe k) (Answers k) c.requiredNull c.out (d.get k) (c.body k (d.get k)) := by
  cases c with
  | can busId c =>
    obtain ⟨i, hi, rfl⟩ := Option.map_eq_some_iff.mp hc
    refine CanCall.keeps hs c fun hadd hopen => CanBus.freeSlot_eq_none_iff.mpr fun j => ?_
    subst hadd
    by_contra hj
    exact hnull ⟨busId, i, rfl, hi, hopen, j, Bool.not_eq_true _ ▸ hj⟩
  | uart portId c =>
    obtain ⟨i, -, rfl⟩ := Option.map_eq_some_iff.mp hc
    exact UartCall.keeps hs portId c
  | spi busId c =>
    obtain ⟨i, -, rfl⟩ := Option.map_eq_some_iff.mp hc
    exact SpiCall.keeps hs busId c
  | i2c busId c =>
    obtain ⟨i, -, rfl⟩ := Option.map_eq_some_iff.mp hc
    exact I2cCall.keeps hs c
  | gpio port pin c =>
    obtain ⟨i, -, rfl⟩ := Option.map_eq_some_iff.mp hc
    exact GpioCall.keeps _ c
  | pwm channel c =>
    obtain ⟨i, -, rfl⟩ := Option.map_eq_some_iff.mp hc
    exact PwmCall.keeps hs c

theorem UnitState.safe_body {k : UnitId} {v w : UnitState k} {c : DriverCall} {r : Result}
    (hs : Safe k v) (h : c.body k v = some (w, r)) : Safe k w := by
  cases k with
  | can i =>
    cases c with
    | can busId c => exact CanBus.body_sound hs h
    | _ => cases h
  | uart i =>
    cases c with
    | uart portId c => exact (UartCall.keeps hs portId c).safe h
    | _ => cases h
  | spi i =>
    cases c with
    | spi busId c => exact (SpiCall.keeps hs busId c).safe h
    | _ => cases h
  | i2c i =>
    cases c with
    | i2c busId c => exact (I2cCall.keeps hs c).safe h
    | _ => cases h
  | gpio i => trivial
  | pwm i =>
    cases c with
    | pwm channel c => exact (PwmCall.keeps hs c).safe h
    | _ => cases h

theorem UnitState.safe_zero (k : UnitId) : Safe k (Drivers.zero.get k) := by
  cases k with
  | can i => exact CanBus.sound_zero
  | uart i => exact (show (0 : Nat) < 1024 by decide)
  | spi i => exact nofun
  | i2c i => exact nofun
  | gpio i => trivial
  | pwm i => exact nofun

namespace Drivers

variable {es : List DriverEvent} {d d' : Drivers} {c : DriverCall} {r : Result}

theorem safe_of_exec (h : exec step zero es = some d) (k : UnitId) :
    UnitState.Safe k (d.get k) := by
  rw [step_eq] at h
  refine units.exec_forall (I := UnitState.Safe) (fun k v e w hv hw => ?_) UnitState.safe_zero h k
  have hbody : answer (fun v c => c.body k v) v (e.1, e.2) = some w := hw
  exact UnitState.safe_body hv (answer_eq_some.mp hbody)

theorem put_get (d : Drivers) (k : UnitId) : d.put k (d.get k) = d := by
  refine ext_get _ _ fun j => ?_
  by_cases hj : j = k
  · subst hj
    exact get_put d j _
  · exact get_put_of_ne d k _ j hj

/-- What holds of one unit's part in a call holds of the call. -/
theorem call_keeps (h : exec step zero es = some d) (hnull : ¬ c.CopiesNull d) :
    ∃ d' r, d.call c = some (d', r) ∧ (c.requiredNull = true → r.ret = -1 ∧ d' = d) ∧
      (r.ret = -1 ∨ r.invoked ≠ [] → d' = d ∧ r.LeftBy (c.Answers d) c.out) := by
  cases hc : c.target with
  | none =>
    refine ⟨d, c.rejected, DriverCall.call_of_idle d hc, fun _ => ⟨?_, rfl⟩, fun _ => ⟨rfl, ?_⟩⟩
    · cases c <;> rfl
    · cases c <;> exact .silent rfl rfl
  | some k =>
    have hk := UnitState.keeps (safe_of_exec h k) hc hnull
    rw [DriverCall.call_of_target d hc]
    cases hb : c.body k (d.get k) with
    | none =>
      rw [hb] at hk
      cases hk
    | some u =>
      rw [hb] at hk
      obtain ⟨-, hreq, hrej⟩ := hk
      refine ⟨d.put k u.1, u.2, rfl, fun hn => ⟨(hreq hn).1, ?_⟩, fun hr => ⟨?_, ?_⟩⟩
      · rw [(hreq hn).2, put_get]
      · rw [(hrej hr).1, put_get]
      · exact (hrej hr).2.mono fun i w hw => ⟨k, hc, hw⟩

theorem call_copiesNull (h : c.CopiesNull d) : d.call c = none := by
  obtain ⟨busId, k, rfl, hid, hopen, i, hi⟩ := h
  cases hfree : (d.canBuses k).freeSlot with
  | none =>
    have := CanBus.freeSlot_eq_none_iff.mp hfree i
    rw [hi] at this
    cases this
  | some j =>
    have ht : (DriverCall.can busId (.addFilter none)).target = some (.can k) := by
      rw [DriverCall.target, hid]
      rfl
    have hbody : CanBus.addFilter none (d.canBuses k) = none := by
      simp [CanBus.addFilter, hopen, hfree]
    rw [DriverCall.call_of_target d ht]
    change ((d.canBuses k).addFilter none).map _ = none
    rw [hbody]
    rfl

end Drivers

/-- In every reachable state a call is defined, and fails without effect if a required pointer is
NULL, exactly when it does not make `simulith_can_add_filter` copy from NULL. -/
theorem driver_null_safe_iff {es : List DriverEvent} {d : Drivers}
    (h : exec Drivers.step .zero es = some d) (c : DriverCall) :
    (∃ d' r, d.call c = some (d', r) ∧ (c.requiredNull = true → r.ret = -1 ∧ d' = d)) ↔
      ¬ c.CopiesNull d := by
  constructor
  · rintro ⟨d', r, hcall, -⟩ hnull
    rw [Drivers.call_copiesNull hnull] at hcall
    cases hcall
  · intro hnull
    obtain ⟨d', r, hcall, hreq, -⟩ := Drivers.call_keeps h hnull
    exact ⟨d', r, hcall, hreq⟩

/-- NULL sent on a bus that is open and has taken a message. -/
theorem driver_null_safe_iff_send : ∃ d,
    exec Drivers.step .zero
      [(.can 0 (.init (some ⟨500000, 75, 1⟩) (some fun _ _ => 0)), .plain 0 .absent),
        (.can 0 (.send (some .zero)), .plain 0 .absent)] = some d ∧
    (d.canBuses 0).initialized = true ∧ (d.canBuses 0).rxHead = 1 ∧
    ∃ d' r, d.call (.can 0 (.send none)) = some (d', r) ∧ r.ret = -1 ∧ d' = d := by
  obtain ⟨d, hd, hopen, hhead⟩ : ∃ d, exec Drivers.step .zero
      [(.can 0 (.init (some ⟨500000, 75, 1⟩) (some fun _ _ => 0)), .plain 0 .absent),
        (.can 0 (.send (some .zero)), .plain 0 .absent)] = some d ∧
      (d.canBuses 0).initialized = true ∧ (d.canBuses 0).rxHead = 1 :=
    exists_exec_of_any (by decide)
  have hnull : ¬ (DriverCall.can 0 (.send none)).CopiesNull d := by
    rintro ⟨_, _, hc, -⟩
    cases hc
  obtain ⟨d', r, hcall, hreq⟩ := (driver_null_safe_iff hd _).mpr hnull
  exact ⟨d, hd, hopen, hhead, d', r, hcall, hreq rfl⟩

/-- A NULL filter added to an open bus is read. -/
theorem can_add_filter_reads_null : ∃ d,
    exec Drivers.step .zero
      [(.can 0 (.init (some ⟨500000, 75, 1⟩) none), .plain 0 .absent)] = some d ∧
    (DriverCall.can 0 (.addFilter none)).requiredNull = true ∧
    d.call (.can 0 (.addFilter none)) = none := by
  have hrun : (exec Drivers.step .zero
      [(.can 0 (.init (some ⟨500000, 75, 1⟩) none), .plain 0 .absent)]).any
      (fun d => decide ((d.call (.can 0 (.addFilter none))).isNone = true)) = true := by
    decide
  obtain ⟨d, hd, hcall⟩ := exists_exec_of_any hrun
  exact ⟨d, hd, rfl, Option.isNone_iff_eq_none.mp hcall⟩

end Simulith
