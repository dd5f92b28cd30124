import Simulith.Can.Bus
import Simulith.Driver.All

/-!
# A unit starts afresh each time it is opened

Closing a unit clears one flag; the rest of it stays in memory. `Alike`
relates two units that are both closed, or open and equal in all that can
still be seen of them: on a bus or port that leaves out the slots of the
buffer that are not waiting to be read. Every operation keeps it and gives the
same result on both sides, so a closed unit answers as one that has never been
used (`unit_starts_afresh`).
-/

namespace Simulith

open Lts

/-- Both closed, or both open and related by `E`. -/
def Alike {U : Type} (isOpen : U → Bool) (E : U → U → Prop) (a b : U) : Prop :=
  isOpen a = isOpen b ∧ (isOpen a = true → E a b)

namespace Alike

variable {U : Type} {isOpen : U → Bool} {E : U → U → Prop} {a b : U}

theorem of_closed (ha : isOpen a = false) (hb : isOpen b = false) : Alike isOpen E a b :=
  ⟨ha.trans hb.symm, fun h => by rw [ha] at h; cases h⟩

theorem of_open (ha : isOpen a = true) (hb : isOpen b = true) (h : E a b) : Alike isOpen E a b :=
  ⟨ha.trans hb.symm, fun _ => h⟩

theorem refl (h : E a a) : Alike isOpen E a a := ⟨rfl, fun _ => h⟩

theorem guard {p : Prop} [Decidable p] {r : Result} {x y : Option (U × Result)}
    (h : Alike isOpen E a b) (hxy : ¬ p → Agree (Alike isOpen E) x y) :
    Agree (Alike isOpen E) (if p then some (a, r) else x) (if p then some (b, r) else y) := by
  split
  · exact .some h
  · next hp => exact hxy hp

end Alike

/-- Where opening sets the whole unit, only what a call does to closed units is to be shown. -/
theorem Alike.agree_of_closed {U : Type} {isOpen : U → Bool} {f : U → Option (U × Result)}
    (hf : ∀ a b, isOpen a = false → isOpen b = false → Agree (Alike isOpen Eq) (f a) (f b))
    {a b : U} (h : Alike isOpen Eq a b) : Agree (Alike isOpen Eq) (f a) (f b) := by
  cases hb : isOpen b with
  | false => exact hf a b (h.1.trans hb) hb
  | true =>
    obtain rfl := h.2 (h.1.trans hb)
    cases f a with
    | none => exact .none
    | some u => exact .some (.refl rfl)

/-! ## CAN -/

namespace CanBus

/-- What an open bus shows of itself. -/
structure SameView (a b : CanBus) : Prop where
  left : a.Sound
  right : b.Sound
  rxCallback_eq : a.rxCallback = b.rxCallback
  filters_eq : a.filters = b.filters
  rxHead_eq : a.rxHead = b.rxHead
  rxTail_eq : a.rxTail = b.rxTail
  unread_eq : a.unread = b.unread

variable {a b : CanBus}

theorem SameView.setFilters (h : SameView a b) (isOpen : Bool)
    (filters : Fin canMaxFilters → FilterSlot) :
    SameView { a with initialized := isOpen, filters := filters }
      { b with initialized := isOpen, filters := filters } :=
  ⟨⟨h.left.1, h.left.2, h.left.3⟩, ⟨h.right.1, h.right.2, h.right.3⟩, h.rxCallback_eq, rfl,
    h.rxHead_eq, h.rxTail_eq, h.unread_eq⟩

theorem alike_init (h : Alike initialized SameView a b) (config : Option CanConfig)
    (rxCb : Option CanRxCallback) :
    Agree (Alike initialized SameView) (a.init config rxCb) (b.init config rxCb) := by
  unfold init
  rw [h.1]
  refine h.guard fun _ => h.guard fun _ => ?_
  cases config with
  | none => exact .none
  | some config =>
    exact .some (.of_open rfl rfl
      ⟨opened_sound config rxCb, opened_sound config rxCb, rfl, rfl, rfl, rfl, rfl⟩)

theorem alike_addFilter (h : Alike initialized SameView a b) (filter : Option CanFilter) :
    Agree (Alike initialized SameView) (a.addFilter filter) (b.addFilter filter) := by
  unfold addFilter
  rw [h.1]
  refine h.guard fun ho => ?_
  have hopen : b.initialized = true := by simpa using ho
  have hv := h.2 (h.1.trans hopen)
  have hfree : a.freeSlot = b.freeSlot := by
    unfold freeSlot
    rw [hv.filters_eq]
  rw [hfree, hv.filters_eq]
  cases b.freeSlot with
  | none => exact .some h
  | some i =>
    cases filter with
    | none => exact .none
    | some filter => exact .some (.of_open hopen hopen (hv.setFilters _ _))

theorem alike_removeFilter (h : Alike initialized SameView a b) (filterId : Int) :
    Agree (Alike initialized SameView) (a.removeFilter filterId) (b.removeFilter filterId) := by
  unfold removeFilter
  rw [h.1]
  refine h.guard fun ho => ?_
  have hopen : b.initialized = true := by simpa using ho
  have hv := h.2 (h.1.trans hopen)
  rw [hv.filters_eq]
  split
  · exact h.guard fun _ => .some (.of_open hopen hopen (hv.setFilters _ _))
  · exact .some h

theorem alike_send (h : Alike initialized SameView a b) (msg : Option CanMessage) :
    Agree (Alike initialized SameView) (a.send msg) (b.send msg) := by
  cases hopen : b.initialized with
  | false =>
    rw [send_closed (h.1.trans hopen), send_closed hopen]
    exact .some h
  | true =>
    have ha := h.1.trans hopen
    have hv := h.2 ha
    cases hm : isValidMessage msg with
    | false =>
      rw [send_invalid hm, send_invalid hm]
      exact .some h
    | true =>
      cases msg with
      | none => cases hm
      | some m =>
        have hm := isValidMessage_iff.mp hm
        rw [send_valid hv.left ha hm, send_valid hv.right hopen hm, hv.rxCallback_eq,
          hv.rxHead_eq, hv.rxTail_eq]
        split
        · next hstore =>
          have hroom := hstore.2
          have hroom' : (a.rxHead + 1) % canRxSlots ≠ a.rxTail := by
            rwa [hv.rxHead_eq, hv.rxTail_eq]
          refine .some (.of_open ha hopen ⟨hv.left.push hroom' hm, hv.right.push hroom hm,
            hv.rxCallback_eq, hv.filters_eq, ?_, hv.rxTail_eq, ?_⟩)
          · exact congrArg (fun i => (i + 1) % canRxSlots) hv.rxHead_eq
          · rw [hv.left.unread_push hroom', hv.right.unread_push hroom, hv.unread_eq]
        · exact .some h

theorem alike_receive (h : Alike initialized SameView a b) (msg : Option CanMessage) :
    Agree (Alike initialized SameView) (a.receive msg) (b.receive msg) := by
  cases hopen : b.initialized with
  | false =>
    rw [receive_closed (h.1.trans hopen), receive_closed hopen]
    exact .some h
  | true =>
    have ha := h.1.trans hopen
    have hv := h.2 ha
    cases msg with
    | none =>
      rw [receive_none, receive_none]
      exact .some h
    | some m =>
      by_cases he : b.rxHead = b.rxTail
      · have he' : a.rxHead = a.rxTail := by rw [hv.rxHead_eq, hv.rxTail_eq, he]
        rw [receive_empty ha he', receive_empty hopen he]
        exact .some h
      · have he' : a.rxHead ≠ a.rxTail := by rwa [hv.rxHead_eq, hv.rxTail_eq]
        have hu := hv.unread_eq
        rw [hv.left.unread_eq_cons he', hv.right.unread_eq_cons he] at hu
        obtain ⟨hm, hrest⟩ := List.cons.inj hu
        rw [receive_some hv.left ha he', receive_some hv.right hopen he, hm]
        refine .some (.of_open ha hopen ⟨hv.left.pop he', hv.right.pop he,
          hv.rxCallback_eq, hv.filters_eq, hv.rxHead_eq, ?_, hrest⟩)
        exact congrArg (fun i => (i + 1) % canRxSlots) hv.rxTail_eq

theorem alike_close (h : Alike initialized SameView a b) :
    Agree (Alike initialized SameView) a.close b.close := by
  unfold close
  rw [h.1]
  exact h.guard fun _ => .some (.of_closed rfl rfl)

theorem alike_body (h : Alike initialized SameView a b) (c : CanCall) :
    Agree (Alike initialized SameView) (c.body a) (c.body b) := by
  cases c with
  | init config rxCb => exact alike_init h config rxCb
  | addFilter filter => exact alike_addFilter h filter
  | removeFilter filterId => exact alike_removeFilter h filterId
  | send msg => exact alike_send h msg
  | receive msg => exact alike_receive h msg
  | close => exact alike_close h

end CanBus

/-! ## UART -/

namespace UartPort

/-- What an open port shows of itself: nothing ever gets into its buffer. -/
structure SameView (a b : UartPort) : Prop where
  rxCallback_eq : a.rxCallback = b.rxCallback
  left_empty : a.rxBufferHead = 0 ∧ a.rxBufferTail = 0
  right_empty : b.rxBufferHead = 0 ∧ b.rxBufferTail = 0

variable {a b : UartPort}

theorem bytesAvailable_eq_zero (h : a.rxBufferHead = 0 ∧ a.rxBufferTail = 0) :
    a.bytesAvailable = 0 := by
  rw [bytesAvailable, h.1, h.2]
  rfl

theorem receive_of_empty (hopen : a.initialized = true) (h : a.bytesAvailable = 0)
    (data : List UInt8) {maxLen : UInt64} (hlen : maxLen ≠ 0) :
    a.receive (some data) maxLen = some (a, .plain 0 (.bytes data)) := by
  have hread : (if 0 < maxLen then 0 else maxLen) = 0 := by
    split
    · rfl
    · next hpos => exact absurd (UInt64.pos_iff_ne_zero.mpr hlen) hpos
  have hrej : ¬ (!a.initialized || (some data).isNone || maxLen == 0) = true := by
    simp [hopen, hlen]
  unfold receive
  rw [if_neg hrej]
  dsimp only
  rw [h, hread, toInt_zero]
  rfl

theorem alike_body (h : Alike initialized SameView a b) (portId : UInt8) (c : UartCall) :
    Agree (Alike initialized SameView) (c.body portId a) (c.body portId b) := by
  cases c with
  | init config rxCb =>
    simp only [UartCall.body]
    unfold init
    rw [h.1]
    refine h.guard fun _ => h.guard fun _ => ?_
    cases config with
    | none => exact .none
    | some config => exact .some (.of_open rfl rfl ⟨rfl, ⟨rfl, rfl⟩, ⟨rfl, rfl⟩⟩)
  | send data len =>
    simp only [UartCall.body]
    unfold send
    rw [h.1]
    refine h.guard fun ho => h.guard fun hargs => ?_
    have hv := h.2 (h.1.trans (by simpa using ho))
    rw [hv.rxCallback_eq]
    cases data with
    | none => exact absurd (.inl rfl) hargs
    | some data =>
      cases readBytes (some data) len.toNat with
      | none => exact .none
      | some u => cases b.rxCallback <;> exact .some h
  | receive data maxLen =>
    simp only [UartCall.body]
    by_cases hargs : b.initialized = true ∧ data.isSome = true ∧ maxLen ≠ 0
    · obtain ⟨hopen, hdata, hlen⟩ := hargs
      obtain ⟨data, rfl⟩ := Option.isSome_iff_exists.mp hdata
      have hv := h.2 (h.1.trans hopen)
      rw [receive_of_empty (h.1.trans hopen) (bytesAvailable_eq_zero hv.left_empty) data hlen,
        receive_of_empty hopen (bytesAvailable_eq_zero hv.right_empty) data hlen]
      exact .some h
    · have hrej : (!b.initialized || data.isNone || maxLen == 0) = true := by
        grind [Option.isSome_iff_ne_none]
      unfold receive
      rw [h.1, if_pos hrej, if_pos hrej]
      exact .some h
  | available =>
    simp only [UartCall.body]
    unfold available
    rw [h.1]
    refine h.guard fun ho => ?_
    have hv := h.2 (h.1.trans (by simpa using ho))
    rw [bytesAvailable_eq_zero hv.left_empty, bytesAvailable_eq_zero hv.right_empty]
    exact .some h
  | close =>
    simp only [UartCall.body]
    unfold close
    rw [h.1]
    exact h.guard fun _ => .some (.of_closed rfl rfl)

end UartPort

/-! ## SPI, I2C, GPIO and PWM -/

theorem SpiBus.alike_body {a b : SpiBus} (h : Alike initialized Eq a b) (busId : UInt8)
    (c : SpiCall) : Agree (Alike initialized Eq) (c.body busId a) (c.body busId b) := by
  refine h.agree_of_closed fun a b ha hb => ?_
  have h : Alike initialized Eq a b := .of_closed ha hb
  cases c with
  | init config transferCb =>
    simp only [SpiCall.body]
    unfold init
    rw [ha, hb]
    refine h.guard fun _ => h.guard fun _ => h.guard fun _ => ?_
    cases config with
    | none => exact .none
    | some config => exact .some (.of_open rfl rfl rfl)
  | transfer csId txData rxData len =>
    simp only [SpiCall.body, transfer, ha, hb]
    exact .some h
  | close =>
    simp only [SpiCall.body, close, ha, hb]
    exact .some h

theorem I2cBus.alike_body {a b : I2cBus} (h : Alike initialized Eq a b) (c : I2cCall) :
    Agree (Alike initialized Eq) (c.body a) (c.body b) := by
  refine h.agree_of_closed fun a b ha hb => ?_
  have h : Alike initialized Eq a b := .of_closed ha hb
  cases c with
  | init readCb writeCb =>
    simp only [I2cCall.body]
    unfold init
    exact h.guard fun _ => .some (.of_open rfl rfl rfl)
  | read addr reg data len =>
    simp only [I2cCall.body, read, ha, hb]
    exact .some h
  | write addr reg data len =>
    simp only [I2cCall.body, write, ha, hb]
    exact .some h

theorem GpioPin.alike_body {a b : GpioPin} (h : Alike initialized Eq a b) (c : GpioCall) :
    Agree (Alike initialized Eq) (c.body a) (c.body b) := by
  refine h.agree_of_closed fun a b ha hb => ?_
  have h : Alike initialized Eq a b := .of_closed ha hb
  cases c with
  | init config =>
    simp only [GpioCall.body]
    unfold init
    rw [ha, hb]
    refine h.guard fun _ => h.guard fun _ => ?_
    cases config with
    | none => exact .none
    | some config => exact .some (.of_open rfl rfl rfl)
  | write value =>
    simp only [GpioCall.body, write, ha, hb]
    exact .some h
  | read value =>
    simp only [GpioCall.body, read, ha, hb]
    exact .some h
  | toggle =>
    simp only [GpioCall.body, toggle, ha, hb]
    exact .some h
  | close =>
    simp only [GpioCall.body, close, ha, hb]
    exact .some h

theorem PwmChannel.alike_body {a b : PwmChannel} (h : Alike initialized Eq a b) (c : PwmCall) :
    Agree (Alike initialized Eq) (c.body a) (c.body b) := by
  refine h.agree_of_closed fun a b ha hb => ?_
  have h : Alike initialized Eq a b := .of_closed ha hb
  cases c with
  | init config =>
    simp only [PwmCall.body]
    unfold init
    cases config with
    | none => exact .some h
    | some config =>
      dsimp only
      rw [ha, hb]
      refine h.guard fun _ => h.guard fun _ => h.guard fun _ => ?_
      by_cases h0 : config.frequencyHz = 0
      · simp only [updateTiming, h0]
        exact .none
      · simp only [updateTiming, h0]
        exact .some (.of_open rfl rfl rfl)
  | start =>
    simp only [PwmCall.body, start, ha, hb]
    exact .some h
  | stop =>
    simp only [PwmCall.body, stop, ha, hb]
    exact .some h
  | setDuty dutyCycle =>
    simp only [PwmCall.body, setDuty, ha, hb]
    split <;> exact .some h
  | setFrequency frequencyHz =>
    simp only [PwmCall.body, setFrequency, ha, hb]
    split <;> exact .some h
  | close =>
    simp only [PwmCall.body, close, ha, hb]
    exact .some h

/-! ## All drivers -/

/-- The unit's `initialized` flag. -/
def UnitState.isOpen : (k : UnitId) → UnitState k → Bool
  | .can _ => CanBus.initialized
  | .uart _ => UartPort.initialized
  | .spi _ => SpiBus.initialized
  | .i2c _ => I2cBus.initialized
  | .gpio _ => GpioPin.initialized
  | .pwm _ => PwmChannel.initialized

def UnitState.SameView : (k : UnitId) → UnitState k → UnitState k → Prop
  | .can _ => CanBus.SameView
  | .uart _ => UartPort.SameView
  | _ => Eq

theorem UnitState.alike_body {k : UnitId} {a b : UnitState k}
    (h : Alike (isOpen k) (SameView k) a b) {c : DriverCall} (hc : c.target = some k) :
    Agree (Alike (isOpen k) (SameView k)) (c.body k a) (c.body k b) := by
  cases c with
  | can busId c =>
    obtain ⟨i, -, rfl⟩ := Option.map_eq_some_iff.mp hc
    exact CanBus.alike_body h c
  | uart portId c =>
    obtain ⟨i, -, rfl⟩ := Option.map_eq_some_iff.mp hc
    exact UartPort.alike_body h portId c
  | spi busId c =>
    obtain ⟨i, -, rfl⟩ := Option.map_eq_some_iff.mp hc
    exact SpiBus.alike_body h busId c
  | i2c busId c =>
    obtain ⟨i, -, rfl⟩ := Option.map_eq_some_iff.mp hc
    exact I2cBus.alike_body h c
  | gpio port pin c =>
    obtain ⟨i, -, rfl⟩ := Option.map_eq_some_iff.mp hc
    exact GpioPin.alike_body h c
  | pwm channel c =>
    obtain ⟨i, -, rfl⟩ := Option.map_eq_some_iff.mp hc
    exact PwmChannel.alike_body h c

theorem UnitState.isOpen_zero (k : UnitId) : isOpen k (Drivers.zero.get k) = false := by
  cases k <;> rfl

/-- The step lemma: calls to a unit that looks the same have the same result. -/
theorem Drivers.agree_call {d e : Drivers} {k : UnitId} {c : DriverCall}
    (h : Alike (UnitState.isOpen k) (UnitState.SameView k) (d.get k) (e.get k))
    (hc : c.target = some k) :
    Agree (fun d e => Alike (UnitState.isOpen k) (UnitState.SameView k) (d.get k) (e.get k))
      (d.call c) (e.call c) := by
  rw [DriverCall.call_of_target d hc, DriverCall.call_of_target e hc]
  have hag := UnitState.alike_body h hc
  generalize c.body k (d.get k) = x at hag ⊢
  generalize c.body k (e.get k) = y at hag ⊢
  cases hag with
  | none => exact .none
  | some h' =>
    refine .some ?_
    rwa [Drivers.get_put, Drivers.get_put]

/-- Whatever was done before, a unit that is not initialised answers any further calls as it
would have at power-on. -/
theorem unit_starts_afresh {d : Drivers} {k : UnitId}
    (hclosed : UnitState.isOpen k (d.get k) = false) {cs : List DriverCall}
    (hcs : ∀ c ∈ cs, c.target = some k) :
    answers Drivers.call d cs = answers Drivers.call .zero cs := by
  apply answers_eq_of_related
    (R := fun d e => Alike (UnitState.isOpen k) (UnitState.SameView k) (d.get k) (e.get k))
    (Q := fun c => c.target = some k)
  · exact fun d e c h hc => Drivers.agree_call h hc
  · exact .of_closed hclosed (UnitState.isOpen_zero k)
  · exact hcs

theorem unit_starts_afresh_closed : ∃ d,
    exec Drivers.step .zero
      [(.can 0 (.init (some ⟨500000, 75, 1⟩) (some fun _ _ => 0)), .plain 0 .absent),
        (.can 0 (.send (some .zero)), .plain 0 .absent), (.can 0 .close, .plain 0 .absent)] =
      some d ∧
    answers Drivers.call d
      [.can 0 (.init (some ⟨500000, 75, 1⟩) none), .can 0 (.receive (some .zero))] =
    answers Drivers.call .zero
      [.can 0 (.init (some ⟨500000, 75, 1⟩) none), .can 0 (.receive (some .zero))] := by
  have hrun : (exec Drivers.step .zero
      [(.can 0 (.init (some ⟨500000, 75, 1⟩) (some fun _ _ => 0)), .plain 0 .absent),
        (.can 0 (.send (some .zero)), .plain 0 .absent),
        (.can 0 .close, .plain 0 .absent)]).any
      (fun d => decide (UnitState.isOpen (.can 0) (d.get (.can 0)) = false)) = true := by
    decide
  obtain ⟨d, hd, hclosed⟩ := exists_exec_of_any hrun
  refine ⟨d, hd, unit_starts_afresh hclosed ?_⟩
  simp only [List.forall_mem_cons, List.not_mem_nil, false_implies, implies_true, and_true]
  exact ⟨rfl, rfl⟩

end Simulith
