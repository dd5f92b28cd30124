import Simulith.Device.Basic
import Simulith.Driver.Contract
import Simulith.Driver.Reuse

/-!
# The drivers behave as the device

`view` reads off a unit what the device holds of it. `Shows` relates a unit
and its view; it needs of the unit what every reachable one keeps, above all
that no UART port ever holds a byte. Every call to related units gives the same
answer and leaves related units, one lemma for each driver, so the drivers and
the device cannot be told apart by any sequence of calls (`drivers_as_device`).
-/

namespace Simulith

open Lts

/-- The unit is safe and `s` is what the device holds of it. -/
structure Shows {U A : Type} (Safe : U → Prop) (view : U → Option A) (u : U) (s : Option A) :
    Prop where
  safe : Safe u
  view_eq : view u = s

/-! ## CAN -/

namespace CanBus

/-- What an open bus holds for the device. -/
def seen (bus : CanBus) : CanDevice where
  receives := bus.rxCallback.isSome
  taken i := (bus.filters i).active
  waiting := bus.unread

def view (bus : CanBus) : Option CanDevice := if bus.initialized then some bus.seen else none

variable {bus : CanBus}

theorem shows_closed (hs : bus.Sound) (h : bus.initialized = false) :
    Shows Sound view bus none := ⟨hs, by simp [view, h]⟩

theorem shows_open {unit : CanDevice} (hs : bus.Sound) (h : bus.initialized = true)
    (hseen : bus.seen = unit) : Shows Sound view bus (some unit) := ⟨hs, by simp [view, h, hseen]⟩

theorem agree_closed (hs : bus.Sound) (hclosed : bus.initialized = false) (c : CanCall) :
    Agree (Shows Sound view) (c.body bus)
      (session (CanDevice.opening c) (.fail c.out) (fun unit => unit.serve c) none) := by
  have hself := shows_closed hs hclosed
  cases c with
  | init config rxCb =>
    simp only [CanCall.body, CanDevice.opening]
    unfold init
    cases hv : CanConfig.isValid config with
    | false => exact .some hself
    | true =>
      cases config with
      | none => cases hv
      | some config =>
        rw [hclosed]
        exact .some ⟨opened_sound config rxCb, rfl⟩
  | addFilter filter =>
    simp only [CanCall.body, addFilter, hclosed]
    exact .some hself
  | removeFilter filterId =>
    simp only [CanCall.body, removeFilter, hclosed]
    exact .some hself
  | send msg =>
    simp only [CanCall.body, send_closed hclosed]
    exact .some hself
  | receive msg =>
    simp only [CanCall.body, receive_closed hclosed]
    exact .some hself
  | close =>
    simp only [CanCall.body, close, hclosed]
    exact .some hself

theorem agree_addFilter (hs : bus.Sound) (hopen : bus.initialized = true)
    (filter : Option CanFilter) :
    Agree (Shows Sound view) (bus.addFilter filter) (bus.seen.serve (.addFilter filter)) := by
  have hfree : (List.finRange canMaxFilters).find? (fun i => !bus.seen.taken i) = bus.freeSlot :=
    rfl
  unfold addFilter
  rw [if_neg (by simp [hopen])]
  simp only [CanDevice.serve, hfree]
  cases bus.freeSlot with
  | none => exact .some (shows_open hs hopen rfl)
  | some i =>
    cases filter with
    | none => exact .none
    | some filter =>
      refine .some (shows_open ⟨hs.1, hs.2, hs.3⟩ hopen ?_)
      unfold seen
      congr 1
      funext j
      by_cases hj : j = i
      · subst hj
        simp
      · simp [hj]

theorem agree_removeFilter (hs : bus.Sound) (hopen : bus.initialized = true) (filterId : Int) :
    Agree (Shows Sound view) (bus.removeFilter filterId)
      (bus.seen.serve (.removeFilter filterId)) := by
  simp only [CanDevice.serve]
  split
  · next hex =>
    obtain ⟨i, rfl, hi⟩ := hex
    have hrange : (0 : Int) ≤ i.val ∧ (i.val : Int) < canMaxFilters := by omega
    have hidx : (⟨(i.val : Int).toNat, by omega⟩ : Fin canMaxFilters) = i := by simp
    unfold removeFilter
    rw [if_neg (by simp [hopen]), dif_pos hrange]
    dsimp only [seen] at hi
    simp only [hidx, hi]
    refine .some (shows_open ⟨hs.1, hs.2, hs.3⟩ hopen ?_)
    unfold seen
    congr 1
    funext j
    by_cases hj : j = i
    · subst hj
      simp
    · have : (i.val : Int) ≠ j.val := fun e => hj (Fin.ext (by omega))
      simp [hj, this]
  · next hex =>
    have hrej : bus.removeFilter filterId = some (bus, .fail .absent) := by
      unfold removeFilter
      rw [if_neg (by simp [hopen])]
      split
      · next hrange =>
        refine if_pos ?_
        by_contra ha
        have hi : (filterId.toNat : Int) = filterId := Int.toNat_of_nonneg hrange.1
        exact hex ⟨⟨filterId.toNat, by omega⟩, hi.symm, by simpa [seen] using ha⟩
      · rfl
    rw [hrej]
    exact .some (shows_open hs hopen rfl)

theorem agree_send (hs : bus.Sound) (hopen : bus.initialized = true) (msg : Option CanMessage) :
    Agree (Shows Sound view) (bus.send msg) (bus.seen.serve (.send msg)) := by
  have hself := shows_open hs hopen rfl
  simp only [CanDevice.serve]
  cases hv : isValidMessage msg with
  | false =>
    rw [send_invalid hv]
    exact .some hself
  | true =>
    cases msg with
    | none => cases hv
    | some m =>
      have hm := isValidMessage_iff.mp hv
      have hstore : (bus.seen.receives = true ∧ bus.seen.waiting.length < 31) ↔
          bus.rxCallback.isSome = true ∧ (bus.rxHead + 1) % canRxSlots ≠ bus.rxTail :=
        and_congr_right fun _ => hs.room_iff.symm
      rw [send_valid hs hopen hm, if_pos rfl]
      split
      · next hroom =>
        rw [if_pos (hstore.mpr hroom)]
        refine .some (shows_open (hs.push hroom.2 hm) hopen ?_)
        unfold seen
        rw [hs.unread_push hroom.2]
        rfl
      · next hdrop =>
        rw [if_neg fun h => hdrop (hstore.mp h)]
        exact .some hself

theorem agree_receive (hs : bus.Sound) (hopen : bus.initialized = true)
    (msg : Option CanMessage) :
    Agree (Shows Sound view) (bus.receive msg) (bus.seen.serve (.receive msg)) := by
  have hself := shows_open hs hopen rfl
  cases msg with
  | none =>
    rw [receive_none]
    exact .some hself
  | some m =>
    simp only [CanDevice.serve]
    by_cases he : bus.rxHead = bus.rxTail
    · have hnil : bus.seen.waiting = [] := hs.unread_eq_nil_iff.mpr he
      rw [receive_empty hopen he, hnil]
      exact .some hself
    · have hcons : bus.seen.waiting = _ := hs.unread_eq_cons he
      rw [receive_some hs hopen he, hcons]
      exact .some (shows_open (hs.pop he) hopen rfl)

theorem agree_body {unit : Option CanDevice} (h : Shows Sound view bus unit) (c : CanCall) :
    Agree (Shows Sound view) (c.body bus)
      (session (CanDevice.opening c) (.fail c.out) (fun unit => unit.serve c) unit) := by
  obtain ⟨hs, rfl⟩ := h
  cases hopen : bus.initialized with
  | false =>
    rw [(shows_closed hs hopen).view_eq]
    exact agree_closed hs hopen c
  | true =>
    have hself := shows_open hs hopen rfl
    rw [hself.view_eq]
    cases c with
    | init config rxCb =>
      have hrej : bus.init config rxCb = some (bus, .fail .absent) := by simp [init, hopen]
      simp only [CanCall.body, hrej]
      exact .some hself
    | addFilter filter => exact agree_addFilter hs hopen filter
    | removeFilter filterId => exact agree_removeFilter hs hopen filterId
    | send msg => exact agree_send hs hopen msg
    | receive msg => exact agree_receive hs hopen msg
    | close =>
      simp only [CanCall.body, close, hopen]
      exact .some (shows_closed ⟨hs.1, hs.2, hs.3⟩ rfl)

end CanBus

/-! ## UART -/

namespace UartPort

/-- No byte waits in an open port. -/
def Empty (port : UartPort) : Prop :=
  port.initialized = true → port.rxBufferHead = 0 ∧ port.rxBufferTail = 0

def view (port : UartPort) : Option UartDevice :=
  if port.initialized then some ⟨port.rxCallback⟩ else none

variable {port : UartPort}

theorem agree_closed (hclosed : port.initialized = false) (portId : UInt8) (c : UartCall) :
    Agree (Shows Empty view) (c.body portId port)
      (session (UartDevice.opening c) (.fail c.out) (fun unit => some (unit.serve portId c))
        none) := by
  have hself : Shows Empty view port none := ⟨by simp [Empty, hclosed], by simp [view, hclosed]⟩
  cases c with
  | init config rxCb =>
    simp only [UartCall.body, UartDevice.opening]
    unfold init
    cases hv : UartConfig.isValid config with
    | false => exact .some hself
    | true =>
      cases config with
      | none => cases hv
      | some config =>
        rw [hclosed]
        exact .some ⟨fun _ => ⟨rfl, rfl⟩, rfl⟩
  | send data len =>
    simp only [UartCall.body, send, hclosed]
    exact .some hself
  | receive data maxLen =>
    simp only [UartCall.body, receive, hclosed]
    exact .some hself
  | available =>
    simp only [UartCall.body, available, hclosed]
    exact .some hself
  | close =>
    simp only [UartCall.body, close, hclosed]
    exact .some hself

theorem agree_body {unit : Option UartDevice} (h : Shows Empty view port unit) (portId : UInt8)
    (c : UartCall) : Agree (Shows Empty view) (c.body portId port)
      (session (UartDevice.opening c) (.fail c.out) (fun unit => some (unit.serve portId c))
        unit) := by
  obtain ⟨hs, rfl⟩ := h
  cases hopen : port.initialized with
  | false =>
    have hview : port.view = none := by simp [view, hopen]
    rw [hview]
    exact agree_closed hopen portId c
  | true =>
    have hview : port.view = some ⟨port.rxCallback⟩ := by simp [view, hopen]
    have hself : Shows Empty view port (some ⟨port.rxCallback⟩) := ⟨hs, hview⟩
    have hnone := bytesAvailable_eq_zero (hs hopen)
    rw [hview]
    cases c with
    | init config rxCb =>
      have hrej : port.init config rxCb = some (port, .fail .absent) := by simp [init, hopen]
      simp only [UartCall.body, hrej]
      exact .some hself
    | send data len =>
      simp only [UartCall.body, send, hopen, Bool.not_true, Bool.false_eq_true, if_false]
      cases data with
      | none => exact .some hself
      | some data =>
        simp only [session, UartDevice.serve]
        by_cases hlen : len = 0
        · rw [if_pos (.inr hlen), if_pos hlen]
          exact .some hself
        · rw [if_neg (by simp [hlen]), if_neg hlen, readBytes_some]
          cases hcb : port.rxCallback <;>
          · rw [hcb] at hself
            exact .some hself
    | receive data maxLen =>
      cases data with
      | none =>
        simp only [UartCall.body, receive, hopen]
        exact .some hself
      | some data =>
        simp only [UartCall.body, session, UartDevice.serve]
        by_cases hlen : maxLen = 0
        · rw [receive, if_pos (by simp [hlen]), if_pos hlen]
          exact .some hself
        · rw [receive_of_empty hopen hnone data hlen, if_neg hlen]
          exact .some hself
    | available =>
      simp only [UartCall.body, available, hopen, hnone, toInt_zero]
      exact .some hself
    | close =>
      simp only [UartCall.body, close, hopen]
      exact .some ⟨by simp [Empty], rfl⟩

end UartPort

/-! ## SPI -/

namespace SpiBus

def view (bus : SpiBus) : Option SpiDevice :=
  if bus.initialized then bus.transferCallback.map .mk else none

variable {bus : SpiBus} {busId csId : UInt8} {txData rxData : Option (List UInt8)} {len : UInt64}

theorem transfer_rejected (h : csId.toNat ≥ maxSpiBuses ∨ txData.isNone ∧ rxData.isNone) :
    bus.transfer busId csId txData rxData len = some (bus, .fail (.ofBytes rxData)) := by
  unfold transfer
  split
  · rfl
  · split
    · rfl
    · next hcs => rw [if_pos (h.resolve_left hcs)]

theorem transfer_nothing (hopen : bus.initialized = true)
    (h : ¬ (csId.toNat ≥ maxSpiBuses ∨ txData.isNone ∧ rxData.isNone)) (hlen : len = 0) :
    bus.transfer busId csId txData rxData len = some (bus, .plain 0 (.ofBytes rxData)) := by
  obtain ⟨hcs, hdata⟩ := not_or.mp h
  unfold transfer
  rw [if_neg (by simp [hopen]), if_neg hcs, if_neg hdata, if_pos hlen]

/-- The log loops run only behind a pointer that is not NULL. -/
theorem transfer_relayed {transferCallback : SpiTransferCallback} (hopen : bus.initialized = true)
    (hcb : bus.transferCallback = some transferCallback)
    (h : ¬ (csId.toNat ≥ maxSpiBuses ∨ txData.isNone ∧ rxData.isNone)) (hlen : len ≠ 0) :
    bus.transfer busId csId txData rxData len =
      some (bus, ⟨(transferCallback.fn busId csId txData rxData len).1,
        .ofBytes (rxData.map fun _ => (transferCallback.fn busId csId txData rxData len).2),
        [.spiTransfer transferCallback.address busId csId txData rxData len], none⟩) := by
  obtain ⟨hcs, hdata⟩ := not_or.mp h
  unfold transfer
  rw [if_neg (by simp [hopen]), if_neg hcs, if_neg hdata, if_neg hlen, hcb]
  cases txData <;> cases rxData <;> simp [readBytes_some]

theorem agree_body {unit : Option SpiDevice} (h : Shows Safe view bus unit) (busId : UInt8)
    (c : SpiCall) : Agree (Shows Safe view) (c.body busId bus)
      (session (SpiDevice.opening c) (.fail c.out) (fun unit => some (unit.serve busId c))
        unit) := by
  obtain ⟨hs, rfl⟩ := h
  have hself : Shows Safe view bus bus.view := ⟨hs, rfl⟩
  cases hopen : bus.initialized with
  | false =>
    have hview : bus.view = none := by simp [view, hopen]
    rw [hview] at hself ⊢
    cases c with
    | init config transferCb =>
      simp only [SpiCall.body, SpiDevice.opening]
      unfold init
      cases hv : SpiConfig.isValid config with
      | false => exact .some hself
      | true =>
        cases config with
        | none => cases hv
        | some config =>
          rw [hopen]
          cases transferCb with
          | none => exact .some hself
          | some transferCb => exact .some ⟨fun _ => rfl, rfl⟩
    | transfer csId txData rxData len =>
      simp only [SpiCall.body, transfer, hopen]
      exact .some hself
    | close =>
      simp only [SpiCall.body, close, hopen]
      exact .some hself
  | true =>
    obtain ⟨transferCallback, hcb⟩ := Option.isSome_iff_exists.mp (hs hopen)
    have hview : bus.view = some ⟨transferCallback⟩ := by simp [view, hopen, hcb]
    rw [hview] at hself ⊢
    cases c with
    | init config transferCb =>
      have hrej : bus.init config transferCb = some (bus, .fail .absent) := by simp [init, hopen]
      simp only [SpiCall.body, hrej]
      exact .some hself
    | transfer csId txData rxData len =>
      simp only [SpiCall.body, session, SpiDevice.serve]
      by_cases hrej : csId.toNat ≥ maxSpiBuses ∨ txData.isNone ∧ rxData.isNone
      · rw [transfer_rejected hrej, if_pos hrej]
        exact .some hself
      · rw [if_neg hrej]
        by_cases hlen : len = 0
        · rw [transfer_nothing hopen hrej hlen, if_pos hlen]
          exact .some hself
        · rw [transfer_relayed hopen hcb hrej hlen, if_neg hlen]
          exact .some hself
    | close =>
      simp only [SpiCall.body, close, hopen]
      exact .some ⟨by simp [Safe], rfl⟩

end SpiBus

/-! ## I2C, GPIO and PWM -/

namespace I2cBus

def view (bus : I2cBus) : Option I2cDevice :=
  if bus.initialized then do
    let readCb ← bus.readCb
    let writeCb ← bus.writeCb
    some ⟨readCb, writeCb⟩
  else none

variable {bus : I2cBus}

theorem agree_init {opening : Option I2cDevice} (hself : Shows Safe view bus opening)
    (readCb : Option I2cReadCallback) (writeCb : Option I2cWriteCallback) :
    Agree (Shows Safe view) (bus.init readCb writeCb)
      (match I2cDevice.opening (.init readCb writeCb) with
        | some unit => some (some unit, .plain 0 .absent)
        | none => some (opening, .einval .absent)) := by
  cases readCb with
  | none => exact .some hself
  | some readCb =>
    cases writeCb with
    | none => exact .some hself
    | some writeCb => exact .some ⟨fun _ => ⟨rfl, rfl⟩, rfl⟩

theorem agree_body {unit : Option I2cDevice} (h : Shows Safe view bus unit) (c : I2cCall) :
    Agree (Shows Safe view) (c.body bus)
      (session (I2cDevice.opening c) (.einval c.out) (fun unit => some (unit.serve c)) unit) := by
  obtain ⟨hs, rfl⟩ := h
  have hself : Shows Safe view bus bus.view := ⟨hs, rfl⟩
  cases hopen : bus.initialized with
  | false =>
    have hview : bus.view = none := by simp [view, hopen]
    rw [hview] at hself ⊢
    cases c with
    | init readCb writeCb =>
      have h := agree_init hself readCb writeCb
      cases readCb <;> cases writeCb <;> exact h
    | read addr reg data len =>
      simp only [I2cCall.body, read, hopen]
      exact .some hself
    | write addr reg data len =>
      simp only [I2cCall.body, write, hopen]
      exact .some hself
  | true =>
    obtain ⟨hr, hw⟩ := hs hopen
    obtain ⟨readCb, hr⟩ := Option.isSome_iff_exists.mp hr
    obtain ⟨writeCb, hw⟩ := Option.isSome_iff_exists.mp hw
    have hview : bus.view = some ⟨readCb, writeCb⟩ := by simp [view, hopen, hr, hw]
    rw [hview] at hself ⊢
    cases c with
    | init readCb' writeCb' =>
      have h := agree_init hself readCb' writeCb'
      cases readCb' <;> cases writeCb' <;> exact h
    | read addr reg data len =>
      simp only [I2cCall.body, read, hopen, hr, Bool.not_true, Bool.false_eq_true, if_false]
      cases data with
      | none => exact .some hself
      | some data =>
        simp only [session, I2cDevice.serve]
        by_cases hlen : len = 0
        · rw [if_pos (.inr hlen), if_pos hlen]
          exact .some hself
        · rw [if_neg (by simp [hlen]), if_neg hlen]
          exact .some hself
    | write addr reg data len =>
      simp only [I2cCall.body, write, hopen, hw, Bool.not_true, Bool.false_eq_true, if_false]
      cases data with
      | none => exact .some hself
      | some data =>
        simp only [session, I2cDevice.serve]
        by_cases hlen : len = 0
        · rw [if_pos (.inr hlen), if_pos hlen]
          exact .some hself
        · rw [if_neg (by simp [hlen]), if_neg hlen]
          exact .some hself

end I2cBus

namespace GpioPin

/-- The pin is an output. -/
def isOutput (pin : GpioPin) : Bool := pin.mode = gpioModeOutput ∨ pin.mode = gpioModeOutputOd

def view (pin : GpioPin) : Option GpioDevice :=
  if pin.initialized then some ⟨pin.isOutput, pin.state⟩ else none

variable {pin : GpioPin}

theorem shows_open {unit : GpioDevice} (h : pin.initialized = true)
    (hunit : ⟨pin.isOutput, pin.state⟩ = unit) : Shows (fun _ => True) view pin (some unit) :=
  ⟨trivial, by simp [view, h, hunit]⟩

theorem agree_init (hclosed : pin.initialized = false) (config : Option GpioConfig)
    (serve : GpioDevice → Option (Option GpioDevice × Result)) :
    Agree (Shows (fun _ => True) view) (pin.init config)
      (session (GpioDevice.opening (.init config)) (.fail .absent) serve none) := by
  have hself : Shows (fun _ => True) view pin none := ⟨trivial, by simp [view, hclosed]⟩
  unfold init
  cases config with
  | none => exact .some hself
  | some config =>
    simp only [GpioDevice.opening]
    cases hv : isValidPinConfig (some config) with
    | false => exact .some hself
    | true =>
      rw [hclosed]
      by_cases hout : config.mode = gpioModeOutput ∨ config.mode = gpioModeOutputOd
      · simp only [hout]
        exact .some (shows_open rfl (by simp [isOutput, hout]))
      · simp only [hout]
        exact .some (shows_open rfl (by simp [isOutput, hout]))

theorem agree_body {unit : Option GpioDevice} (h : Shows (fun _ => True) view pin unit)
    (c : GpioCall) : Agree (Shows (fun _ => True) view) (c.body pin)
      (session (GpioDevice.opening c) (.fail c.out) (fun unit => some (unit.serve c)) unit) := by
  obtain ⟨-, rfl⟩ := h
  have hself : Shows (fun _ => True) view pin pin.view := ⟨trivial, rfl⟩
  cases hopen : pin.initialized with
  | false =>
    have hview : pin.view = none := by simp [view, hopen]
    rw [hview] at hself ⊢
    cases c with
    | init config => exact agree_init hopen config _
    | write value =>
      simp only [GpioCall.body, write, hopen]
      exact .some hself
    | read value =>
      simp only [GpioCall.body, read, hopen]
      exact .some hself
    | toggle =>
      simp only [GpioCall.body, toggle, hopen]
      exact .some hself
    | close =>
      simp only [GpioCall.body, close, hopen]
      exact .some hself
  | true =>
    have hview : pin.view = some ⟨pin.isOutput, pin.state⟩ := by simp [view, hopen]
    have hout : pin.isOutput = true ↔
        ¬ (pin.mode ≠ gpioModeOutput ∧ pin.mode ≠ gpioModeOutputOd) := by
      rw [isOutput, decide_eq_true_iff, not_and_or, not_not, not_not]
    rw [hview] at hself ⊢
    cases c with
    | init config =>
      have hrej : pin.init config = some (pin, .fail .absent) := by simp [init, hopen]
      simp only [GpioCall.body, hrej]
      exact .some hself
    | write value =>
      simp only [GpioCall.body, write, hopen, session, GpioDevice.serve, hout]
      split
      · next h => exact absurd h (by decide)
      · split
        · next hin =>
          rw [if_neg fun h => h.1 hin]
          exact .some hself
        · next hin =>
          split
          · next hlarge =>
            rw [if_neg fun h => absurd h.2 (UInt8.not_le.mpr hlarge)]
            exact .some hself
          · next hsmall =>
            rw [if_pos ⟨hin, UInt8.not_lt.mp hsmall⟩]
            exact .some (shows_open rfl rfl)
    | read value =>
      cases value with
      | none =>
        simp only [GpioCall.body, read, hopen]
        exact .some hself
      | some value =>
        simp only [GpioCall.body, read, hopen]
        exact .some hself
    | toggle =>
      simp only [GpioCall.body, toggle, hopen, session, GpioDevice.serve, hout]
      split
      · next h => exact absurd h (by decide)
      · split
        · exact .some hself
        · exact .some (shows_open rfl rfl)
    | close =>
      simp only [GpioCall.body, close, hopen]
      exact .some ⟨trivial, rfl⟩

end GpioPin

namespace PwmChannel

def view (pwm : PwmChannel) : Option PwmDevice := if pwm.initialized then some ⟨⟩ else none

variable {pwm : PwmChannel}

theorem shows_open (hs : pwm.Safe) (h : pwm.initialized = true) :
    Shows Safe view pwm (some ⟨⟩) := ⟨hs, by simp [view, h]⟩

theorem agree_updateTiming {pwm : PwmChannel} (hv : pwm.config.Valid)
    (hopen : pwm.initialized = true) : Agree (Shows Safe view)
      (pwm.updateTiming.bind fun p => some (p, Result.plain 0 .absent))
      (some (some ⟨⟩, .plain 0 .absent)) := by
  obtain ⟨p, hp, hc, hi, -⟩ := updateTiming_eq hv
  rw [hp]
  refine .some (shows_open (fun _ => ?_) (hi.trans hopen))
  rw [hc]
  exact hv

theorem agree_body {unit : Option PwmDevice} (h : Shows Safe view pwm unit) (c : PwmCall) :
    Agree (Shows Safe view) (c.body pwm)
      (session (PwmDevice.opening c) (.fail .absent) (fun unit => some (unit.serve c)) unit) := by
  obtain ⟨hs, rfl⟩ := h
  have hself : Shows Safe view pwm pwm.view := ⟨hs, rfl⟩
  cases hopen : pwm.initialized with
  | false =>
    have hview : pwm.view = none := by simp [view, hopen]
    rw [hview] at hself ⊢
    cases c with
    | init config =>
      cases config with
      | none => exact .some hself
      | some config =>
        simp only [PwmCall.body, init, hopen, session, PwmDevice.opening]
        cases hf : isValidFrequency config.frequencyHz with
        | false => exact .some hself
        | true =>
          cases hd : isValidDutyCycle config.dutyCycle with
          | false => exact .some hself
          | true => exact agree_updateTiming ⟨hf, hd⟩ rfl
    | start =>
      simp only [PwmCall.body, start, hopen]
      exact .some hself
    | stop =>
      simp only [PwmCall.body, stop, hopen]
      exact .some hself
    | setDuty dutyCycle =>
      simp only [PwmCall.body, setDuty, hopen, Bool.not_false, if_true, ite_self]
      exact .some hself
    | setFrequency frequencyHz =>
      simp only [PwmCall.body, setFrequency, hopen, Bool.not_false, if_true, ite_self]
      exact .some hself
    | close =>
      simp only [PwmCall.body, close, hopen]
      exact .some hself
  | true =>
    have hview : pwm.view = some ⟨⟩ := by simp [view, hopen]
    rw [hview] at hself ⊢
    cases c with
    | init config =>
      cases config with
      | none => exact .some hself
      | some config =>
        simp only [PwmCall.body, init, hopen, if_true, ite_self]
        exact .some hself
    | start =>
      simp only [PwmCall.body, start, hopen]
      exact .some (shows_open (fun _ => hs hopen) rfl)
    | stop =>
      simp only [PwmCall.body, stop, hopen]
      exact .some (shows_open (fun _ => hs hopen) rfl)
    | setDuty dutyCycle =>
      simp only [PwmCall.body, setDuty, hopen, session, PwmDevice.serve]
      cases hd : isValidDutyCycle dutyCycle with
      | false => exact .some hself
      | true => exact agree_updateTiming ⟨(hs hopen).1, hd⟩ rfl
    | setFrequency frequencyHz =>
      simp only [PwmCall.body, setFrequency, hopen, session, PwmDevice.serve]
      cases hf : isValidFrequency frequencyHz with
      | false => exact .some hself
      | true => exact agree_updateTiming ⟨hf, (hs hopen).2⟩ rfl
    | close =>
      simp only [PwmCall.body, close, hopen]
      cases hrun : pwm.running <;>
      · simp only [stop, hopen]
        exact .some ⟨by simp [Safe], rfl⟩

end PwmChannel

/-! ## All drivers -/

namespace UnitState

/-- A unit and what the device holds of it. -/
def Shown : (k : UnitId) → UnitState k → Option (OpenUnit k) → Prop
  | .can _ => Shows CanBus.Sound CanBus.view
  | .uart _ => Shows UartPort.Empty UartPort.view
  | .spi _ => Shows SpiBus.Safe SpiBus.view
  | .i2c _ => Shows I2cBus.Safe I2cBus.view
  | .gpio _ => Shows (fun _ => True) GpioPin.view
  | .pwm _ => Shows PwmChannel.Safe PwmChannel.view

theorem shown_zero (k : UnitId) : Shown k (Drivers.zero.get k) none := by
  cases k with
  | can i => exact ⟨CanBus.sound_zero, rfl⟩
  | uart i => exact ⟨by rintro ⟨⟩, rfl⟩
  | spi i => exact ⟨by rintro ⟨⟩, rfl⟩
  | i2c i => exact ⟨by rintro ⟨⟩, rfl⟩
  | gpio i => exact ⟨trivial, rfl⟩
  | pwm i => exact ⟨by rintro ⟨⟩, rfl⟩

theorem agree_body {k : UnitId} {v : UnitState k} {unit : Option (OpenUnit k)}
    (h : Shown k v unit) (c : DriverCall) :
    Agree (Shown k) (c.body k v) (Device.body k c unit) := by
  cases k with
  | can i =>
    cases c with
    | can busId c => exact CanBus.agree_body h c
    | _ => exact .none
  | uart i =>
    cases c with
    | uart portId c => exact UartPort.agree_body h portId c
    | _ => exact .none
  | spi i =>
    cases c with
    | spi busId c => exact SpiBus.agree_body h busId c
    | _ => exact .none
  | i2c i =>
    cases c with
    | i2c busId c => exact I2cBus.agree_body h c
    | _ => exact .none
  | gpio i =>
    cases c with
    | gpio port pin c => exact GpioPin.agree_body h c
    | _ => exact .none
  | pwm i =>
    cases c with
    | pwm channel c => exact PwmChannel.agree_body h c
    | _ => exact .none

end UnitState

/-- The step lemma: a call keeps the drivers and the device related, unit by unit. -/
theorem Drivers.agree_device {d : Drivers} {e : Device}
    (h : ∀ k, UnitState.Shown k (d.get k) (e k)) (c : DriverCall) :
    Agree (fun d e => ∀ k, UnitState.Shown k (Drivers.get d k) (e k)) (d.call c) (e.call c) := by
  unfold Device.call
  cases hc : c.target with
  | none =>
    rw [DriverCall.call_of_idle d hc]
    exact .some h
  | some k =>
    rw [DriverCall.call_of_target d hc]
    have hbody := UnitState.agree_body (h k) c
    dsimp only
    generalize c.body k (d.get k) = x at hbody ⊢
    generalize Device.body k c (e k) = y at hbody ⊢
    cases hbody with
    | none => exact .none
    | some hv =>
      refine .some fun j => ?_
      by_cases hj : j = k
      · subst hj
        rw [get_put, Function.update_self]
        exact hv
      · rw [get_put_of_ne _ _ _ _ hj, Function.update_of_ne hj]
        exact h j

/-- From power-on, the drivers and the device give the same answers to any sequence of calls. -/
theorem drivers_as_device (cs : List DriverCall) :
    answers Drivers.call .zero cs = answers Device.call .closed cs :=
  answers_eq_of_related (Q := fun _ => True) (fun _ _ c h _ => Drivers.agree_device h c)
    UnitState.shown_zero fun _ _ => trivial

end Simulith
